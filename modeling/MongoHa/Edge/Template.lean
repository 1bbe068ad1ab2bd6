/-
Module: MongoHa.Edge.Template
Layer: Edge
Purpose: The haproxy edge (`nodes.rs`, `template.rs`): `parse_nodes` reads `MONGO_NODES`, and
  `generate_config` renders the configuration, its backend last. `serverLine` reads a line of a backend
  the way haproxy does, by its words.
Imports: MongoHa.Wrapper.Config
Trusted boundary: human-reviewed spec
Main exports: MongoNode, parseNode, parseNodes, EdgeConfig, checkSettings, serverEntry, serverEntries,
  generateStatsListener, backendHead, configHead, generateBackend, generateConfig, serverLine,
  backendServers
Open obligations: none
-/
import MongoHa.Wrapper.Config

namespace MongoHa

open Foundations.RustStr

/-! ### The nodes -/

/-- One node of `MONGO_NODES`, as HAProxy names and reaches it. -/
structure MongoNode where
  name : String
  host : String
  mongoPort : UInt16
deriving Repr, DecidableEq

/-- One entry of `MONGO_NODES`. -/
def parseNode (entry : String) : Except String MongoNode :=
  let entry := trim entry
  match splitOnce ":" entry with
  | none => .error ("invalid node format: '" ++ entry ++ "'. Expected hostname:port")
  | some (host, port) =>
      match parseU16 port with
      | none => .error ("invalid port in '" ++ entry ++ "': " ++ port)
      | some mongoPort =>
          .ok { name := (split '.' host).headD "", host := host, mongoPort := mongoPort }

/-- `parse_nodes`: the first entry that is no node is the error. -/
def parseNodes (mongoNodes : String) : Except String (List MongoNode) :=
  (split ',' mongoNodes).mapM parseNode

/-! ### The configuration -/

/-- Credential guarding the stats page for non-loopback clients. -/
structure StatsAuth where
  user : String
  password : String
deriving Repr, DecidableEq

/-- The `Config` of the edge. -/
structure EdgeConfig where
  mongoNodes : String
  healthPort : UInt16 := 8080
  mongoPort : UInt16 := 27017
  maxConn : String := "10000"
  timeoutConnect : String := "10s"
  timeoutClient : String := "1d"
  timeoutServer : String := "1d"
  timeoutCheck : String := "3s"
  checkInterval : String := "3s"
  checkFastinter : String := "500ms"
  checkDowninter : String := "500ms"
  statsAuth : Option StatsAuth := none

/-- The part of a server line that is the same for every node. -/
def checkSettings (healthPort : UInt16) (config : EdgeConfig) : String :=
  "port " ++ toString healthPort ++ " resolvers railway inter " ++ config.checkInterval ++
    " fastinter " ++ config.checkFastinter ++ " downinter " ++ config.checkDowninter

def MongoNode.address (node : MongoNode) : String :=
  node.host ++ ":" ++ toString node.mongoPort

/-- The line of one node. -/
def serverEntry (healthPort : UInt16) (config : EdgeConfig) (node : MongoNode) : String :=
  "    server " ++ node.name ++ " " ++ node.address ++ " check " ++ checkSettings healthPort config

/-- The lines of all nodes, in their order. -/
def serverEntries (nodes : List MongoNode) (healthPort : UInt16) (config : EdgeConfig) : String :=
  "\n".intercalate (nodes.map (serverEntry healthPort config))

/-- The stats listener. haproxy expands the credential from its environment, so it is never rendered. -/
def generateStatsListener (config : EdgeConfig) : String :=
  let (userlist, remoteRule) :=
    if config.statsAuth.isSome then
      ("userlist stats_users\n    user \"$\x7bHAPROXY_STATS_USER\x7d\" " ++
          "insecure-password \"$\x7bHAPROXY_STATS_PASSWORD\x7d\"\n\n",
        "http-request auth unless \x7b http_auth(stats_users) \x7d")
    else ("", "http-request deny")
  userlist ++ "\n".intercalate
    ["# Stats page for monitoring",
     "listen stats",
     "    bind :::8404 v4v6",
     "    mode http",
     "    acl LOCALHOST src 127.0.0.1 ::1 ::ffff:127.0.0.1",
     "    http-request allow if LOCALHOST",
     "    " ++ remoteRule,
     "    stats enable",
     "    stats uri /stats",
     "    stats refresh 10s",
     "    # This proxy's own traffic is not worth logging: the in-container",
     "    # monitoring loop scrapes /stats every few seconds and each scrape opens",
     "    # two connections. Carried over from redis-ha, where inheriting `log",
     "    # global` here made self-traffic ~99% of the service's entire log volume,",
     "    # burying the lines an operator actually needs (backend UP/DOWN, DNS",
     "    # re-resolution, client connects).",
     "    no log",
     ""]

/-- The lines of the backend before its servers. -/
def backendHead : List String :=
  ["backend mongo_primary_backend",
   "    option httpchk",
   "    http-check send meth GET uri /role",
   "    http-check expect status 200",
   "    # fall 2 + fastinter 500ms: the first failed /role check switches the",
   "    # probe to the fast interval, so a real step-down is confirmed and the",
   "    # server pulled ~500ms after the first failure — but ONE slow or dropped",
   "    # check can no longer RST every client connection on a healthy primary.",
   "    # /role runs two admin commands (2s timeout each) against `timeout check",
   "    # 3s`, so a single blip under load is expected, and with no secondary",
   "    # passing /role a false mark-down is a self-inflicted write outage until",
   "    # `rise 2` readmits the primary. shutdown-sessions RSTs every open client",
   "    # connection the moment the server is genuinely marked down, forcing",
   "    # clients to reconnect and land on the new primary.",
   "    default-server fall 2 rise 2 on-marked-down shutdown-sessions"]

/-- The lines of the configuration before the backend. -/
def configHead (config : EdgeConfig) : List String :=
  ["global",
   "    maxconn " ++ config.maxConn,
   "    log stdout format raw local0",
   "",
   "defaults",
   "    log global",
   "    mode tcp",
   "    option tcpka",
   "    option clitcpka",
   "    option srvtcpka",
   "    option redispatch",
   "    retries 3",
   "    timeout connect " ++ config.timeoutConnect,
   "    timeout client " ++ config.timeoutClient,
   "    timeout server " ++ config.timeoutServer,
   "    timeout check " ++ config.timeoutCheck,
   "",
   "resolvers railway",
   "    parse-resolv-conf",
   "    resolve_retries 3",
   "    timeout resolve 1s",
   "    timeout retry   1s",
   "    hold other      10s",
   "    hold refused    10s",
   "    hold nx         10s",
   "    hold timeout    10s",
   "    hold valid      10s",
   "    hold obsolete   10s",
   "",
   generateStatsListener config,
   "# Write traffic — routed exclusively to the current replica set PRIMARY.",
   "# The /role health check returns 200 only on the primary node.",
   "frontend mongo_writes",
   "    bind :::" ++ toString config.mongoPort ++ " v4v6",
   "    default_backend mongo_primary_backend",
   ""]

/-- The backend that `generate_config` renders, to the end of the text. -/
def generateBackend (config : EdgeConfig) (nodes : List MongoNode) : String :=
  "\n".intercalate (backendHead ++ [serverEntries nodes config.healthPort config, ""])

/-- `generate_config`. -/
def generateConfig (config : EdgeConfig) (nodes : List MongoNode) : String :=
  "\n".intercalate (configHead config ++ [generateBackend config nodes])

/-! ### What haproxy reads -/

/-- The name and the address of a server line; no line else. -/
def serverLine (line : String) : Option (String × String) :=
  match splitWhitespace line with
  | "server" :: arguments => some (arguments.getD 0 "", arguments.getD 1 "")
  | _ => none

/-- The servers that the lines of a text declare, in order. -/
def serversOf (text : String) : List (String × String) :=
  (split '\n' text).filterMap serverLine

/-- The servers of the backend. -/
def backendServers (config : EdgeConfig) (nodes : List MongoNode) : List (String × String) :=
  serversOf (generateBackend config nodes)

end MongoHa
