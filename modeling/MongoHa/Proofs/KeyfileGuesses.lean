/-
Module: MongoHa.Proofs.KeyfileGuesses
Layer: Proofs
Purpose: Guessing at the root password through `/rs/keyfile`. Over any number of requests in every
  interleaving, the permits that are not free are those of the requests with a credential under check or a
  refusal held back, so the requests on them are jobs on slots, the refused ones slow. What a request is
  answered is what the node would answer it alone, with the keyfile it ran with as the request came in.
Imports: MongoHa.Foundations.Slots, MongoHa.Wrapper.KeyfileSlots
Trusted boundary: none (fully proved)
Main exports: Occupied, exists_occupied, Asked, keyfile_guesses_bounded, wrong_password_refused
Open obligations: none
-/
import MongoHa.Foundations.Slots
import MongoHa.Wrapper.KeyfileSlots

namespace MongoHa

open Foundations

variable {ι : Type*} [DecidableEq ι] {s t : KeyfileServer ι} {i : ι}

namespace KeyfileServer

/-- When the requests that were refused got their answers. -/
def refusals (s : KeyfileServer ι) : List Instant :=
  (s.answers.filter fun answer => answer.response.status = StatusCode.unauthorized).map
    KeyfileAnswer.sentAt

omit [DecidableEq ι] in
theorem countP_refusals (s : KeyfileServer ι) (after until_ : Instant) :
    s.refusals.countP (fun instant => after < instant ∧ instant ≤ until_) =
      s.refusedIn after until_ := by
  rw [refusals, List.countP_map, List.countP_filter, refusedIn]
  refine List.countP_congr fun answer _ => ?_
  simp [and_comm]

theorem refusals_answer (s : KeyfileServer ι) (i : ι) (response : HttpResponse) :
    (s.answer i response).refusals =
      if response.status = StatusCode.unauthorized then s.now :: s.refusals else s.refusals := by
  by_cases refused : response.status = StatusCode.unauthorized
  · simp [refusals, answer, enter, refused]
  · simp [refusals, answer, enter, refused]

end KeyfileServer

theorem status_keyfileReply {keyfile : String} {probe : RootProbe} :
    (keyfileReply keyfile probe).status = StatusCode.unauthorized ↔ probe = .refused := by
  cases probe with
  | root => simp [keyfileReply, HttpResponse.text, StatusCode.ok, StatusCode.unauthorized]
  | refused => simp [keyfileReply, HttpResponse.text]
  | notReady reason =>
      simp [keyfileReply, HttpResponse.text, StatusCode.serviceUnavailable, StatusCode.unauthorized]

/-! ### The permits as slots -/

/-- The requests on permits are the jobs on the slots, and a refusal is due when its slot has been held
    for the delay. -/
structure Occupied (s : KeyfileServer ι) (slots : Slots ι) : Prop where
  now : slots.now = s.now
  holders : ∀ i, i ∈ slots.holders ↔ (s.phase i).holdsSlot = true
  permits : s.permits + slots.holders.card = keyfileProbes
  due : ∀ i keyfile wakes, s.phase i = .refused keyfile wakes →
    slots.since i + keyfileRefusalDelay ≤ wakes
  slow : slots.slow = s.refusals

/-- A request whose phase changes leaves the others where they are. -/
theorem holdsSlot_enter (s : KeyfileServer ι) (i : ι) (phase : KeyfilePhase) (j : ι) :
    ((s.enter i phase).phase j).holdsSlot = true ↔
      if j = i then phase.holdsSlot = true else (s.phase j).holdsSlot = true := by
  by_cases same : j = i
  · subst same
    simp [KeyfileServer.enter]
  · simp [KeyfileServer.enter, same]

namespace Occupied

variable {slots : Slots ι}

/-- The request keeps what it has. -/
theorem enter (occupied : Occupied s slots) (i : ι) (phase : KeyfilePhase)
    (kept : phase.holdsSlot = (s.phase i).holdsSlot)
    (due : ∀ keyfile wakes, phase = .refused keyfile wakes →
      slots.since i + keyfileRefusalDelay ≤ wakes) :
    Occupied (s.enter i phase) slots where
  now := occupied.now
  holders := by
    intro j
    rw [occupied.holders, holdsSlot_enter]
    split
    · rename_i same
      rw [same, kept]
    · rfl
  permits := occupied.permits
  due := by
    intro j keyfile wakes refused
    by_cases same : j = i
    · subst same
      exact due keyfile wakes (by simpa [KeyfileServer.enter] using refused)
    · exact occupied.due j keyfile wakes (by simpa [KeyfileServer.enter, same] using refused)
  slow := occupied.slow

/-- The request leaves its slot. -/
theorem released (occupied : Occupied s slots) (holds : (s.phase i).holdsSlot = true) :
    Occupied (s.enter i .ended).release (slots.release i) where
  now := occupied.now
  holders := by
    intro j
    have stays := holdsSlot_enter s i .ended j
    rw [KeyfileServer.release, stays, Slots.release, Finset.mem_erase, occupied.holders]
    split
    · rename_i same
      simp [same, KeyfilePhase.holdsSlot]
    · rename_i other
      simp [other]
  permits := by
    have member := (occupied.holders i).2 holds
    have fewer := Finset.card_erase_add_one member
    have total := occupied.permits
    simp only [KeyfileServer.release, KeyfileServer.enter, Slots.release]
    omega
  due := by
    intro j keyfile wakes refused
    by_cases same : j = i
    · subst same
      simp [KeyfileServer.release, KeyfileServer.enter] at refused
    · exact occupied.due j keyfile wakes
        (by simpa [KeyfileServer.release, KeyfileServer.enter, same] using refused)
  slow := occupied.slow

omit [DecidableEq ι] in
/-- An answer changes what has been sent, and nothing else. -/
theorem answered (occupied : Occupied s slots) {answers : List (KeyfileAnswer ι)} {slow : List Instant}
    (sent : slow = ({ s with answers := answers } : KeyfileServer ι).refusals) :
    Occupied { s with answers := answers } { slots with slow := slow } :=
  ⟨occupied.now, occupied.holders, occupied.permits, occupied.due, sent⟩

/-- The answer is no refusal, so no slow job ends. -/
theorem answer_of_ne (occupied : Occupied (s.enter i .ended) slots) {response : HttpResponse}
    (kind : response.status ≠ StatusCode.unauthorized) : Occupied (s.answer i response) slots := by
  apply occupied.answered
  have sent := s.refusals_answer i response
  rw [if_neg kind] at sent
  exact occupied.slow.trans sent.symm

end Occupied

theorem occupied_judged {slots : Slots ι} {keyfile username : String} {status : ConnectionStatus}
    (bounded : slots.Bounded keyfileProbes keyfileRefusalDelay) (occupied : Occupied s slots)
    (probes : s.phase i = .probing keyfile username) :
    Occupied (s.judged i keyfile username status) slots ∨
      ∃ after, SlotStep keyfileProbes keyfileRefusalDelay slots after ∧
        Occupied (s.judged i keyfile username status) after := by
  have holds : (s.phase i).holdsSlot = true := by rw [probes]; rfl
  have member : i ∈ slots.holders := (occupied.holders i).2 holds
  have heard : Occupied (s.hear i status) slots :=
    ⟨occupied.now, occupied.holders, occupied.permits, occupied.due, occupied.slow⟩
  have freed : ∀ probe, probe ≠ RootProbe.refused →
      Occupied ((s.hear i status).answer i (keyfileReply keyfile probe)).release
        (slots.release i) := by
    intro probe other
    apply (heard.released holds).answered
    have sent := (s.hear i status).refusals_answer i (keyfileReply keyfile probe)
    rw [if_neg (mt status_keyfileReply.1 other)] at sent
    exact occupied.slow.trans sent.symm
  unfold KeyfileServer.judged
  cases judged : s.holder.probe username status with
  | refused =>
      refine Or.inl (heard.enter i _ holds.symm fun other wakes asleep => ?_)
      obtain ⟨-, rfl⟩ := KeyfilePhase.refused.inj asleep
      have taken := bounded.since i member
      rw [occupied.now] at taken
      exact Nat.add_le_add_right taken _
  | root => exact Or.inr ⟨_, .release member, freed .root (by simp)⟩
  | notReady reason => exact Or.inr ⟨_, .release member, freed (.notReady reason) (by simp)⟩

theorem occupied_step {slots : Slots ι}
    (bounded : slots.Bounded keyfileProbes keyfileRefusalDelay)
    (occupied : Occupied s slots) (step : KeyfileStep s t) :
    Occupied t slots ∨ ∃ after, SlotStep keyfileProbes keyfileRefusalDelay slots after ∧
      Occupied t after := by
  cases step with
  | wait elapsed =>
      refine Or.inr ⟨_, .wait elapsed, ?_⟩
      exact ⟨congrArg (· + elapsed) occupied.now, occupied.holders, occupied.permits, occupied.due,
        occupied.slow⟩
  | rotate keyfile =>
      exact Or.inl ⟨occupied.now, occupied.holders, occupied.permits, occupied.due, occupied.slow⟩
  | @arrive i username idle =>
      have outside : (s.phase i).holdsSlot = false := by rw [idle]; rfl
      unfold KeyfileServer.arrive
      cases kept : s.holder.keyfile with
      | none =>
          have left := occupied.enter i .ended outside.symm (by simp)
          have quiet : (HttpResponse.text StatusCode.notFound "not a replica set member").status ≠
              StatusCode.unauthorized := by decide
          have sent := left.answer_of_ne quiet
          exact Or.inl ⟨sent.now, sent.holders, sent.permits, sent.due, sent.slow⟩
      | some keyfile =>
          have entered := occupied.enter i (.waiting keyfile username) outside.symm
            (by simp)
          exact Or.inl ⟨entered.now, entered.holders, entered.permits, entered.due, entered.slow⟩
  | @acquire i keyfile username waits free =>
      have new : i ∉ slots.holders := by
        rw [occupied.holders, waits]
        simp [KeyfilePhase.holdsSlot]
      have total := occupied.permits
      have room : slots.holders.card < keyfileProbes := by omega
      refine Or.inr ⟨_, .take new room, occupied.now, fun j => ?_, ?_, fun j other wakes asleep => ?_,
        occupied.slow⟩
      · have entered := holdsSlot_enter s i (.probing keyfile username) j
        rw [KeyfileServer.acquire, entered, Slots.take, Finset.mem_insert, occupied.holders]
        split
        · rename_i same
          simp [same, KeyfilePhase.holdsSlot]
        · rename_i other
          simp [other]
      · simp only [KeyfileServer.acquire, Slots.take, Finset.card_insert_of_notMem new]
        omega
      · by_cases same : j = i
        · subst same
          simp [KeyfileServer.acquire, KeyfileServer.enter] at asleep
        · have before : s.phase j = .refused other wakes := by
            simpa [KeyfileServer.acquire, KeyfileServer.enter, same] using asleep
          simpa [Slots.take, same] using occupied.due j other wakes before
  | judged probes status => exact occupied_judged bounded occupied probes
  | @woken i keyfile wakes sleeps due =>
      have holds : (s.phase i).holdsSlot = true := by rw [sleeps]; rfl
      have member : i ∈ slots.holders := (occupied.holders i).2 holds
      have held : slots.since i + keyfileRefusalDelay ≤ slots.now :=
        (occupied.due i keyfile wakes sleeps).trans (due.trans occupied.now.ge)
      refine Or.inr ⟨_, .releaseSlow member held, ?_⟩
      apply (occupied.released holds).answered
      have sent := s.refusals_answer i (keyfileReply keyfile .refused)
      rw [if_pos (status_keyfileReply.2 rfl), ← occupied.slow, ← occupied.now] at sent
      exact sent.symm
  | @dropped i came gone =>
      unfold KeyfileServer.dropped
      by_cases holds : (s.phase i).holdsSlot = true
      · rw [if_pos holds]
        exact Or.inr ⟨_, .release ((occupied.holders i).2 holds), occupied.released holds⟩
      · rw [if_neg holds]
        have outside : (s.phase i).holdsSlot = false := by simpa using holds
        exact Or.inl (occupied.enter i .ended outside.symm (by simp))

/-- The handler uses its permits as slots. -/
theorem exists_occupied (reached : (KeyfileServer.system ι).Reachable s) :
    ∃ slots, (Slots.system keyfileProbes keyfileRefusalDelay).Reachable slots ∧ Occupied s slots := by
  apply System.Reachable.related _ _ reached
  · rintro start ⟨free, idle, silent⟩
    refine ⟨{ now := start.now, holders := ∅, since := fun _ => 0, slow := [] }, ⟨rfl, rfl⟩, ?_⟩
    refine ⟨rfl, fun i => ?_, ?_, fun i keyfile wakes refused => ?_, ?_⟩
    · simp [idle i, KeyfilePhase.holdsSlot]
    · simp [free]
    · rw [idle i] at refused
      cases refused
    · simp [KeyfileServer.refusals, silent]
  · intro before after slots reachable occupied step
    exact occupied_step (Slots.bounded_of_reachable reachable) occupied step

/-! ### What the requests are answered -/

/-- The request asked for this keyfile when it came in, under this name. -/
def KeyfileServer.Asking (s : KeyfileServer ι) (i : ι) (keyfile username : String) : Prop :=
  ∃ holder, s.asked i = some (holder, username) ∧ holder.keyfile = some keyfile ∧
    holder.rootUsername = s.holder.rootUsername

/-- What a request would be answered if it was the only one, by the node as the request met it and for the
    verdict that mongod gave on it. A node without a keyfile needs no verdict. -/
def KeyfileServer.Alone (s : KeyfileServer ι) (i : ι) (response : HttpResponse) : Prop :=
  ∃ holder username status, s.asked i = some (holder, username) ∧
    (holder.keyfile = none ∨ s.verdict i = some status) ∧ response = rsKeyfile holder username status

/-- What is kept of the requests. -/
structure Asked (s : KeyfileServer ι) : Prop where
  waiting : ∀ i keyfile username, s.phase i = .waiting keyfile username → s.Asking i keyfile username
  probing : ∀ i keyfile username, s.phase i = .probing keyfile username → s.Asking i keyfile username
  refused : ∀ i keyfile wakes, s.phase i = .refused keyfile wakes →
    s.Alone i (keyfileReply keyfile .refused)
  ended : ∀ answer ∈ s.answers, s.phase answer.request = .ended
  alone : ∀ answer ∈ s.answers, s.Alone answer.request answer.response
  once : (s.answers.map KeyfileAnswer.request).Nodup

/-- The account that may ask stays the same over a rotation. -/
theorem alone_of_asking {keyfile username : String} (asking : s.Asking i keyfile username)
    (status : ConnectionStatus) :
    (s.hear i status).Alone i (keyfileReply keyfile (s.holder.probe username status)) := by
  obtain ⟨holder, asked, kept, account⟩ := asking
  refine ⟨holder, username, status, asked, Or.inr (Function.update_self ..), ?_⟩
  rw [rsKeyfile, kept, KeyfileHolder.probe, KeyfileHolder.probe, account]

omit [DecidableEq ι] in
/-- What a request met, and the verdict on it, say what it is answered. -/
theorem KeyfileServer.Alone.congr {response : HttpResponse} (alone : s.Alone i response)
    (met : t.asked i = s.asked i) (heard : t.verdict i = s.verdict i) : t.Alone i response := by
  obtain ⟨holder, username, status, asked, judged, same⟩ := alone
  exact ⟨holder, username, status, met.trans asked, judged.imp_right heard.trans, same⟩

namespace Asked

/-- The request moves on, without an answer. -/
theorem enter (asked : Asked s) (phase : KeyfilePhase) (running : s.phase i ≠ .ended)
    (waiting : ∀ keyfile username, phase = .waiting keyfile username → s.Asking i keyfile username)
    (probing : ∀ keyfile username, phase = .probing keyfile username → s.Asking i keyfile username)
    (refused : ∀ keyfile wakes, phase = .refused keyfile wakes →
      s.Alone i (keyfileReply keyfile .refused)) : Asked (s.enter i phase) := by
  have there : ∀ {motive : KeyfilePhase → ι → Prop}, motive phase i →
      (∀ j, motive (s.phase j) j) → ∀ j, motive ((s.enter i phase).phase j) j := by
    intro motive here others j
    by_cases same : j = i
    · subst same
      simpa [KeyfileServer.enter] using here
    · simpa [KeyfileServer.enter, same] using others j
  refine ⟨?_, ?_, ?_, fun answer member => ?_, asked.alone, asked.once⟩
  · exact there (motive := fun p j => ∀ keyfile username, p = .waiting keyfile username →
      s.Asking j keyfile username) waiting asked.waiting
  · exact there (motive := fun p j => ∀ keyfile username, p = .probing keyfile username →
      s.Asking j keyfile username) probing asked.probing
  · exact there (motive := fun p j => ∀ keyfile wakes, p = .refused keyfile wakes →
      s.Alone j (keyfileReply keyfile .refused)) refused asked.refused
  · have finished := asked.ended answer member
    have other : answer.request ≠ i := fun same => running (same ▸ finished)
    simpa [KeyfileServer.enter, other] using finished

/-- The request is answered, and so it ends. -/
theorem answer (asked : Asked s) {response : HttpResponse} (running : s.phase i ≠ .ended)
    (alone : s.Alone i response) : Asked (s.answer i response) := by
  have left := asked.enter .ended running (by simp) (by simp) (by simp)
  have new : i ∉ s.answers.map KeyfileAnswer.request := by
    rw [List.mem_map]
    rintro ⟨answer, member, rfl⟩
    exact running (asked.ended answer member)
  refine ⟨left.waiting, left.probing, left.refused, ?_, ?_, ?_⟩
  · refine List.forall_mem_cons.2 ⟨?_, left.ended⟩
    simp [KeyfileServer.answer, KeyfileServer.enter]
  · exact List.forall_mem_cons.2 ⟨alone, left.alone⟩
  · exact List.nodup_cons.2 ⟨new, asked.once⟩

omit [DecidableEq ι] in
/-- The permits say nothing of what was asked. -/
theorem withPermits (asked : Asked s) (permits : Nat) : Asked { s with permits := permits } :=
  ⟨asked.waiting, asked.probing, asked.refused, asked.ended, asked.alone, asked.once⟩

/-- What a request met is noted as it comes in. -/
theorem note (asked : Asked s) (idle : s.phase i = .idle) (username : String) :
    Asked (s.note i username) := by
  have others : ∀ j, s.phase j ≠ .idle → (s.note i username).asked j = s.asked j := by
    intro j came
    have other : j ≠ i := fun same => came (same ▸ idle)
    simp [KeyfileServer.note, other]
  refine ⟨?_, ?_, ?_, asked.ended, ?_, asked.once⟩
  · intro j keyfile account waits
    obtain ⟨holder, kept⟩ := asked.waiting j keyfile account waits
    have came : s.phase j ≠ .idle := fun same => by
      rw [KeyfileServer.note, same] at waits
      cases waits
    exact ⟨holder, by rw [others j came]; exact kept⟩
  · intro j keyfile account probes
    obtain ⟨holder, kept⟩ := asked.probing j keyfile account probes
    have came : s.phase j ≠ .idle := fun same => by
      rw [KeyfileServer.note, same] at probes
      cases probes
    exact ⟨holder, by rw [others j came]; exact kept⟩
  · intro j keyfile wakes sleeps
    have came : s.phase j ≠ .idle := fun same => by
      rw [KeyfileServer.note, same] at sleeps
      cases sleeps
    exact (asked.refused j keyfile wakes sleeps).congr (others j came) rfl
  · intro answer member
    have finished := asked.ended answer member
    exact (asked.alone answer member).congr (others _ (by simp [finished])) rfl

/-- The verdict on a request is noted as its probe answers. -/
theorem hear (asked : Asked s) {keyfile username : String} (probes : s.phase i = .probing keyfile username)
    (status : ConnectionStatus) : Asked (s.hear i status) := by
  have others : ∀ j, s.phase j ≠ .probing keyfile username →
      (s.hear i status).verdict j = s.verdict j := by
    intro j moved
    have other : j ≠ i := fun same => moved (same ▸ probes)
    simp [KeyfileServer.hear, other]
  refine ⟨asked.waiting, asked.probing, ?_, asked.ended, ?_, asked.once⟩
  · intro j kept wakes sleeps
    have moved : s.phase j ≠ .probing keyfile username := fun same => by
      rw [KeyfileServer.hear, same] at sleeps
      cases sleeps
    exact (asked.refused j kept wakes sleeps).congr rfl (others j moved)
  · intro answer member
    have finished := asked.ended answer member
    exact (asked.alone answer member).congr rfl (others _ (by simp [finished]))

end Asked

theorem asked_step (asked : Asked s) (step : KeyfileStep s t) : Asked t := by
  cases step with
  | wait elapsed =>
      exact ⟨asked.waiting, asked.probing, asked.refused, asked.ended, asked.alone, asked.once⟩
  | rotate keyfile =>
      exact ⟨asked.waiting, asked.probing, asked.refused, asked.ended, asked.alone, asked.once⟩
  | @arrive i username idle =>
      have noted := asked.note idle username
      have running : s.phase i ≠ .ended := by simp [idle]
      have here : (s.note i username).asked i = some (s.holder, username) := Function.update_self ..
      unfold KeyfileServer.arrive
      cases kept : s.holder.keyfile with
      | none =>
          apply noted.answer running
          refine ⟨s.holder, username, .timedOut, here, Or.inl kept, ?_⟩
          simp [rsKeyfile, kept]
      | some keyfile =>
          apply noted.enter (.waiting keyfile username) running _ (by simp) (by simp)
          intro other account entered
          obtain ⟨rfl, rfl⟩ := KeyfilePhase.waiting.inj entered
          exact ⟨s.holder, here, kept, rfl⟩
  | @acquire i keyfile username waits free =>
      have running : s.phase i ≠ .ended := by simp [waits]
      have entered := asked.enter (.probing keyfile username) running (by simp)
        (fun other account same => by
          obtain ⟨rfl, rfl⟩ := KeyfilePhase.probing.inj same
          exact asked.waiting i keyfile username waits)
        (by simp)
      exact entered.withPermits _
  | @judged i keyfile username probes status =>
      have running : (s.hear i status).phase i ≠ .ended := by simp [KeyfileServer.hear, probes]
      have heard := asked.hear probes status
      have alone := alone_of_asking (asked.probing i keyfile username probes) status
      unfold KeyfileServer.judged
      cases judged : s.holder.probe username status with
      | refused =>
          apply heard.enter _ running (by simp) (by simp)
          intro other wakes sleeps
          obtain ⟨rfl, -⟩ := KeyfilePhase.refused.inj sleeps
          rwa [judged] at alone
      | root => exact (heard.answer running (judged ▸ alone)).withPermits _
      | notReady reason => exact (heard.answer running (judged ▸ alone)).withPermits _
  | @woken i keyfile wakes sleeps due =>
      exact (asked.answer (by simp [sleeps]) (asked.refused i keyfile wakes sleeps)).withPermits _
  | @dropped i came gone =>
      have left := asked.enter .ended gone (by simp) (by simp) (by simp)
      unfold KeyfileServer.dropped
      split
      · exact left.withPermits _
      · exact left

theorem asked_of_reachable (reached : (KeyfileServer.system ι).Reachable s) : Asked s := by
  apply System.invariant _ _ reached
  · rintro start ⟨-, idle, silent⟩
    refine ⟨?_, ?_, ?_, by simp [silent], by simp [silent], by simp [silent]⟩
    · simp [idle]
    · simp [idle]
    · simp [idle]
  · intro before after _ asked step
    exact asked_step asked step

/-- However many ask at once, at most four credentials are checked or held back, no window of some seconds
    sees more than four refusals for each of them, and every request is answered once, as if it was alone,
    for the verdict that mongod gave on it. -/
theorem keyfile_guesses_bounded (reached : (KeyfileServer.system ι).Reachable s) :
    (∀ requests : Finset ι, (∀ i ∈ requests, (s.phase i).holdsSlot = true) →
      requests.card ≤ keyfileProbes) ∧
    (∀ instant secs, s.refusedIn instant (instant + Duration.fromSecs secs) ≤ secs * keyfileProbes) ∧
    (∀ answer ∈ s.answers, s.Alone answer.request answer.response) ∧
    (s.answers.map KeyfileAnswer.request).Nodup := by
  obtain ⟨slots, reachable, occupied⟩ := exists_occupied reached
  have asked := asked_of_reachable reached
  refine ⟨fun requests held => ?_, fun instant secs => ?_, asked.alone, asked.once⟩
  · have within : requests ⊆ slots.holders := fun i member => (occupied.holders i).2 (held i member)
    exact (Finset.card_le_card within).trans (Slots.card_holders_le reachable)
  · have length : Duration.fromSecs secs = secs * keyfileRefusalDelay := by
      rw [keyfileRefusalDelay, Duration.fromSecs, Duration.fromSecs, Nat.one_mul]
    have windows := Slots.endedIn_windows_le reachable instant secs
    rw [Slots.endedIn, occupied.slow, s.countP_refusals] at windows
    rwa [length]

/-- A member whose root account is `root`. -/
def askedMember : KeyfileServer Unit where
  now := 0
  holder := { loaded := some "key", booted := none, rootUsername := "root" }
  permits := keyfileProbes
  phase _ := .idle
  answers := []
  asked _ := none
  verdict _ := none

def wrongPasswordTold : KeyfileServer Unit :=
  let probing := (askedMember.arrive () "root").acquire () "key" "root"
  let told := probing.judged () "key" "root" (.authentication "bad auth")
  { told with now := told.now + keyfileRefusalDelay }

theorem wrongPassword_reached :
    (KeyfileServer.system Unit).Reachable (wrongPasswordTold.woken () "key") := by
  have start : (KeyfileServer.system Unit).Reachable askedMember := .init ⟨rfl, fun _ => rfl, rfl⟩
  have idle : askedMember.phase () = .idle := rfl
  have arrived := start.step (.arrive "root" idle)
  have waits : (askedMember.arrive () "root").phase () = .waiting "key" "root" := rfl
  have acquired := arrived.step (.acquire waits (by decide))
  have probes : ((askedMember.arrive () "root").acquire () "key" "root").phase () =
      .probing "key" "root" := rfl
  have told := acquired.step (.judged probes (.authentication "bad auth"))
  have sleeps : wrongPasswordTold.phase () = .refused "key" keyfileRefusalDelay := rfl
  exact (told.step (.wait keyfileRefusalDelay)).step (.woken sleeps (by decide))

/-- One refused caller: the second it was held back for counts one refusal. -/
theorem wrong_password_refused :
    (wrongPasswordTold.woken () "key").refusedIn 0 (0 + Duration.fromSecs 1) = 1 ∧
      (wrongPasswordTold.woken () "key").refusedIn 0 (0 + Duration.fromSecs 1) ≤ 1 * keyfileProbes :=
  ⟨by decide, (keyfile_guesses_bounded wrongPassword_reached).2.1 0 1⟩

end MongoHa
