/-
Module: MongoHa.Wrapper.DnsProbe
Layer: Wrapper
Purpose: `dns_probe.rs`: the verdict on a name by one query to the first nameserver of the resolver
  configuration, with the question it sends and the response code it reads. What the network answers is
  read from a `ProbeReads`; the verdict is gone for NXDOMAIN alone.
Imports: MongoHa.Foundations.DnsMessage, MongoHa.Foundations.NetAddr, MongoHa.Wrapper.Peers
Trusted boundary: human-reviewed spec
Main exports: ProbeDetail, ProbeReads, firstNameserver, encodeQuery, decodeRcode, queryRcode,
  probeNameDetailed, probeNameDetailed_literal
Open obligations: none
-/
import MongoHa.Foundations.DnsMessage
import MongoHa.Foundations.NetAddr
import MongoHa.Wrapper.Peers

namespace MongoHa

open Foundations
open Foundations.RustStr
open Foundations.NetAddr

/-- What the probe observed. -/
inductive ProbeDetail where
  | ipLiteral
  | noResolver
  | timeout
  | rcode (code : UInt8)
deriving Repr, DecidableEq, Inhabited

/-- What one probe reads of its surroundings. -/
structure ProbeReads where
  resolvConf : String
  queryId : UInt16
  /-- The socket was bound and connected, and took the query. -/
  sent : Bool
  /-- What was received, up to the deadline or the first failing receive. -/
  datagrams : List (List UInt8)
deriving Repr, Inhabited

/-- The address of the first `nameserver` entry. Its port is 53. -/
def firstNameserver (resolvConf : String) : Option IpAddr :=
  (((lines resolvConf).map trim).filter fun line =>
      line.toList.head? ≠ some '#' ∧ line.toList.head? ≠ some ';').findSome? fun line =>
    match splitWhitespace line with
    | "nameserver" :: addr :: _ => parseIpAddr addr
    | _ => none

/-- The loop over the labels. -/
def encodeLabels : List String → Option (List UInt8)
  | [] => some []
  | label :: rest =>
      if (bytes label).length = 0 ∨ 63 < (bytes label).length then none
      else
        (encodeLabels rest).map fun packet =>
          (bytes label).length.toUInt8 :: (bytes label ++ packet)

/-- The name as it is encoded: one trailing dot is ignored. -/
def bareName (name : String) : String :=
  (stripSuffix '.' name).getD name

/-- A recursion-desired AAAA question, or none when the name cannot be encoded. -/
def encodeQuery (id : UInt16) (name : String) : Option (List UInt8) :=
  let name := bareName name
  if (bytes name).length = 0 ∨ 255 < (bytes name).length then none
  else
    (encodeLabels (split '.' name)).map fun labels =>
      DnsMessage.beBytes id ++
        -- flags: RD; QDCOUNT 1; AN/NS/AR 0
        [0x01, 0x00, 0x00, 0x01, 0x00, 0x00, 0x00, 0x00, 0x00, 0x00] ++
        labels ++
        -- root label; QTYPE AAAA; QCLASS IN
        [0] ++ [0x00, 0x1c] ++ [0x00, 0x01]

/-- The response code of a reply that matches the id and is a response. -/
def decodeRcode (id : UInt16) (reply : List UInt8) : Option UInt8 :=
  match reply with
  | i₁ :: i₀ :: flags :: code :: rest =>
      if rest.length < 8 then none
      else if [i₁, i₀] ≠ DnsMessage.beBytes id then none
      else if flags &&& 0x80 = 0 then none
      else some (code &&& 0x0f)
  | _ => none

/-- One round-trip. A reply to another query is passed over; the buffer takes 512 octets of each. -/
def queryRcode (name : String) (reads : ProbeReads) : Option UInt8 :=
  (encodeQuery reads.queryId name).bind fun _ =>
    if reads.sent then
      reads.datagrams.findSome? fun datagram => decodeRcode reads.queryId (datagram.take 512)
    else none

/-- The verdict on a name and what was observed. -/
def probeNameDetailed (name : String) (reads : ProbeReads) : NameVerdict × ProbeDetail :=
  if (parseIpAddr name).isSome then (.existsOrUnknown, .ipLiteral)
  else
    match firstNameserver reads.resolvConf with
    | none => (.existsOrUnknown, .noResolver)
    | some _ =>
        match queryRcode name reads with
        | some code => (if code = 3 then .gone else .existsOrUnknown, .rcode code)
        | none => (.existsOrUnknown, .timeout)

/-- A literal is never judged gone, whatever the network answers. -/
theorem probeNameDetailed_literal {name : String} (literal : (parseIpAddr name).isSome = true)
    (reads : ProbeReads) : probeNameDetailed name reads = (.existsOrUnknown, .ipLiteral) :=
  if_pos literal

end MongoHa
