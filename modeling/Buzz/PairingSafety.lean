import Mathlib.Logic.Relation
import Buzz.ExceptRules
import Buzz.PairingSession

/-!
# The secret leaves the source along the confirmed path only

A source and a target run against a relay that may drop, repeat, reorder and make
up events. Each session keeps a log of its calls, and the statements are about
what stands in the log before a payload.
-/

namespace Buzz

section Logs

variable {α : Type} {P : α → Prop} {Q : List α → α → Prop} {log : List α} {entry : α}

/-- At most one entry satisfies `P`, and what stands before it is as `Q` says. -/
def OnlyAfter (P : α → Prop) (Q : List α → α → Prop) (log : List α) : Prop :=
  ∀ before entry after, log = before ++ entry :: after → P entry →
    (∀ other ∈ before, ¬P other) ∧ Q before entry

theorem onlyAfter_of_none (h : ∀ other ∈ log, ¬P other) : OnlyAfter P Q log := by
  rintro before entry after rfl hentry
  exact absurd hentry (h entry (by simp))

theorem append_singleton_split {before after : List α} {last : α}
    (h : log ++ [last] = before ++ entry :: after) :
    (before = log ∧ entry = last) ∨ ∃ rest, log = before ++ entry :: rest := by
  rcases List.eq_nil_or_concat after with rfl | ⟨rest, x, rfl⟩
  · obtain ⟨hlog, hlast⟩ := List.append_inj' h rfl
    exact Or.inl ⟨hlog.symm, (List.singleton_inj.mp hlast).symm⟩
  · have hassoc : before ++ entry :: rest.concat x = (before ++ entry :: rest) ++ [x] := by simp
    rw [hassoc] at h
    exact Or.inr ⟨rest, (List.append_inj' h rfl).1⟩

theorem OnlyAfter.append_other (h : OnlyAfter P Q log) (hentry : ¬P entry) :
    OnlyAfter P Q (log ++ [entry]) := by
  intro before other after hsplit hother
  rcases append_singleton_split hsplit with ⟨rfl, rfl⟩ | ⟨rest, hlog⟩
  · exact absurd hother hentry
  · exact h before other rest hlog hother

theorem onlyAfter_append_first (h : ∀ other ∈ log, ¬P other) (hentry : Q log entry) :
    OnlyAfter P Q (log ++ [entry]) := by
  intro before other after hsplit hother
  rcases append_singleton_split hsplit with ⟨rfl, rfl⟩ | ⟨rest, hlog⟩
  · exact ⟨h, hentry⟩
  · exact absurd hother (h other (by simp [hlog]))

end Logs

inductive PairingCall where
  | handleOffer (event : Event)
  | confirmSas
  | sendPayload (payloadType : PayloadType) (payload : String)
  | handleComplete (event : Event)
  | handleSasConfirm (event : Event)
  | confirmTargetSas
  | handlePayload (event : Event)
  | sendComplete
  | abort (reason : AbortReason)
  | handleAbort (event : Event)

inductive PairingReply where
  | sas (code : String)
  | event (event : Event)
  | done
  | payload (payloadType : PayloadType) (payload : String)
  | maybeEvent (event : Option Event)
  | reason (reason : AbortReason)

structure PairingEntry where
  call : PairingCall
  reply : Except PairingError PairingReply

namespace PairingCall

def event? : PairingCall → Option Event
  | handleOffer event => some event
  | handleComplete event => some event
  | handleSasConfirm event => some event
  | handlePayload event => some event
  | handleAbort event => some event
  | _ => none

def carriesPayload : PairingCall → Bool
  | sendPayload _ _ => true
  | handlePayload _ => true
  | _ => false

end PairingCall

namespace PairingEntry

/-- The payload event that the source emitted. -/
def emittedPayload (entry : PairingEntry) : Option Event :=
  match entry.call, entry.reply with
  | .sendPayload _ _, .ok (.event event) => some event
  | _, _ => none

/-- The payload that the target returned. -/
def returnedPayload (entry : PairingEntry) : Option (PayloadType × String) :=
  match entry.call, entry.reply with
  | .handlePayload _, .ok (.payload payloadType payload) => some (payloadType, payload)
  | _, _ => none

/-- The events that the entry hands to the relay. -/
def emitted (entry : PairingEntry) : List Event :=
  match entry.reply with
  | .ok (.event event) => [event]
  | .ok (.maybeEvent (some event)) => [event]
  | _ => []

end PairingEntry

section Calls

variable (crypto : PairingCrypto) (session : PairingSession) (env : Surroundings)

def replied {α : Type} (f : α → PairingReply) (result : PairingSession × Except PairingError α) :
    PairingSession × Except PairingError PairingReply :=
  (result.1, result.2.map f)

def PairingSession.call : PairingCall → PairingSession × Except PairingError PairingReply
  | .handleOffer event => replied .sas (session.handleOffer crypto env event)
  | .confirmSas => replied .event (session.confirmSas crypto env)
  | .sendPayload payloadType payload =>
      replied .event (session.sendPayload crypto env payloadType payload)
  | .handleComplete event => replied (fun _ => .done) (session.handleComplete crypto env event)
  | .handleSasConfirm event => replied .sas (session.handleSasConfirm crypto env event)
  | .confirmTargetSas => replied (fun _ => .done) (session.confirmTargetSas env)
  | .handlePayload event =>
      replied (fun result => .payload result.1 result.2) (session.handlePayload crypto env event)
  | .sendComplete => replied .event (session.sendComplete crypto env)
  | .abort reason => replied .maybeEvent (session.abort crypto env reason)
  | .handleAbort event => replied .reason (session.handleAbort crypto event)

end Calls

/-- What the session relies on: the ECDH secret is the same on both sides, a NIP-44 message opens
to what was sealed and only where the ECDH secret exists, JSON is read back as written. -/
structure PairingCrypto.Lawful (crypto : PairingCrypto) : Prop where
  sharedKey_symm : ∀ a b, crypto.generateSharedKey a (crypto.publicKey b) =
    crypto.generateSharedKey b (crypto.publicKey a)
  sharedKey_of_decrypt : ∀ key peer content text, crypto.decrypt key peer content = .ok text →
    ∃ shared, crypto.generateSharedKey key peer = .ok shared
  decrypt_encrypt : ∀ a b nonce text content,
    crypto.encrypt a (crypto.publicKey b) nonce text = .ok content →
      crypto.decrypt b (crypto.publicKey a) content = .ok text
  fromJson_toJson : ∀ message text, crypto.toJson message = .ok text →
    crypto.fromJson text = .ok message

section Transitions

variable {crypto : PairingCrypto} {session next : PairingSession} {env : Surroundings}
variable {event : Event} {call : PairingCall} {message : PairingMessage} {state : SessionState}

/-- The session is the same up to its state and the events it has seen. -/
structure SameParty (s t : PairingSession) : Prop where
  role : t.role = s.role
  keys : t.keys = s.keys
  sessionSecret : t.sessionSecret = s.sessionSecret
  sessionId : t.sessionId = s.sessionId
  peerPubkey : t.peerPubkey = s.peerPubkey
  sasCode : t.sasCode = s.sasCode
  sasInput : t.sasInput = s.sasInput

theorem sameParty_state (s : PairingSession) (state : SessionState) (ids : List Bytes32) :
    SameParty s { s with state := state, processedIds := ids } :=
  ⟨rfl, rfl, rfl, rfl, rfl, rfl, rfl⟩

theorem SameParty.trans {r s t : PairingSession} (h : SameParty r s) (h' : SameParty s t) :
    SameParty r t where
  role := h'.role.trans h.role
  keys := h'.keys.trans h.keys
  sessionSecret := h'.sessionSecret.trans h.sessionSecret
  sessionId := h'.sessionId.trans h.sessionId
  peerPubkey := h'.peerPubkey.trans h.peerPubkey
  sasCode := h'.sasCode.trans h.sasCode
  sasInput := h'.sasInput.trans h.sasInput

/-- A verified event that opens to the message. -/
structure Received (crypto : PairingCrypto) (session : PairingSession) (event : Event)
    (message : PairingMessage) : Prop where
  verified : crypto.verify event = .ok ()
  decrypted : session.decryptMessage crypto event = .ok message

theorem Received.congr {s t : PairingSession}
    (h : Received crypto s event message) (hkeys : t.keys = s.keys) :
    Received crypto t event message := by
  refine ⟨h.verified, ?_⟩
  have hdecrypted := h.decrypted
  unfold PairingSession.decryptMessage at hdecrypted ⊢
  rw [hkeys]
  exact hdecrypted

/-- What one call can do. -/
inductive Transition (crypto : PairingCrypto) (s : PairingSession) (env : Surroundings) :
    PairingCall → PairingSession → Except PairingError PairingReply → Prop where
  | refused (call : PairingCall) (error : PairingError) :
      Transition crypto s env call s (.error error)
  | ended {call : PairingCall} {t : PairingSession} (reply : Except PairingError PairingReply) :
      call.carriesPayload = false → s.state.isTerminal = false → SameParty s t →
      t.state = .aborted → Transition crypto s env call t reply
  | offered {event : Event} {sessionId : String} {shared : Bytes32} {t : PairingSession}
      (code : String) : s.role = .source → s.state = .waiting →
      Received crypto s event (.offer sessionId 1) → hexDecode32 sessionId = some s.sessionId →
      crypto.generateSharedKey s.keys event.pubkey = .ok shared →
      SameParty { s with
        peerPubkey := some event.pubkey
        sasCode := some (crypto.deriveSas shared s.sessionSecret).1
        sasInput := some (crypto.deriveSas shared s.sessionSecret).2 } t →
      t.state = .confirming → Transition crypto s env (.handleOffer event) t (.ok (.sas code))
  | confirmed {t : PairingSession} (event : Event) : s.role = .source → s.state = .confirming →
      SameParty s t → t.state = .transferring →
        Transition crypto s env .confirmSas t (.ok (.event event))
  | released {t : PairingSession} {payloadType : PayloadType} {payload : String} {event : Event} :
      s.role = .source → s.state = .transferring →
      s.buildEvent crypto env (.payload payloadType payload) = .ok event → SameParty s t →
      t.state = .payloadExchanged →
      Transition crypto s env (.sendPayload payloadType payload) t (.ok (.event event))
  | matched {t : PairingSession} {event : Event} {hash : String} {own : Bytes32}
      {reply : Except PairingError PairingReply} : s.role = .target → s.state = .confirming →
      Received crypto s event (.sasConfirm hash) →
      (∀ peer, s.peerPubkey = some peer → event.pubkey = peer) →
      s.targetTranscript crypto = .ok own → hexDecode32 hash = some own → SameParty s t →
      t.state = .awaitingConfirmation →
      (∀ code, s.sasCode = some code → reply = .ok (.sas (formatSas code))) →
      Transition crypto s env (.handleSasConfirm event) t reply
  | approved {t : PairingSession} : s.role = .target → s.state = .awaitingConfirmation →
      SameParty s t → t.state = .transferring →
        Transition crypto s env .confirmTargetSas t (.ok .done)
  | received {t : PairingSession} {event : Event} {payloadType : PayloadType} {payload : String} :
      s.role = .target → s.state = .transferring →
      Received crypto s event (.payload payloadType payload) →
      (∀ peer, s.peerPubkey = some peer → event.pubkey = peer) → SameParty s t →
      t.state = .payloadExchanged →
      Transition crypto s env (.handlePayload event) t (.ok (.payload payloadType payload))
  | finished {call : PairingCall} {t : PairingSession} (reply : Except PairingError PairingReply) :
      call.carriesPayload = false → s.state = .payloadExchanged → SameParty s t →
      t.state = .completed → Transition crypto s env call t reply

/-- A reply that is no event hands out none. -/
theorem not_emitted {α : Type} {f : α → PairingReply}
    {result : PairingSession × Except PairingError α}
    (hreply : ∀ a, f a ≠ .event event ∧ f a ≠ .maybeEvent (some event)) :
    event ∉ (PairingEntry.mk call (replied f result).2).emitted := by
  obtain ⟨after, outcome⟩ := result
  cases outcome with
  | error e => simp [replied, PairingEntry.emitted, Except.map]
  | ok a =>
      have ha := hreply a
      simp only [replied, PairingEntry.emitted, Except.map]
      cases hf : f a with
      | event other =>
          rw [hf] at ha
          simpa using fun heq : event = other => ha.1 (by rw [heq])
      | maybeEvent other =>
          rw [hf] at ha
          cases other with
          | none => simp
          | some other => simpa using fun heq : event = other => ha.2 (by rw [heq])
      | sas | done | payload | reason => simp

theorem expect_ok {role : Role}
    (h : session.expect env state role = .ok ()) : session.state = state ∧ session.role = role := by
  obtain ⟨_, -, h⟩ := except_bind_ok h
  obtain ⟨_, hstate, hrole⟩ := except_bind_ok h
  unfold PairingSession.expectState at hstate
  unfold PairingSession.expectRole at hrole
  split_ifs at hstate hrole with h₁ h₂
  exact ⟨h₁, h₂⟩

theorem validateEventBasics_ok
    (h : session.validateEventBasics crypto event = .ok ()) : crypto.verify event = .ok () := by
  unfold PairingSession.validateEventBasics at h
  split at h
  · cases h
  · assumption

theorem validateEventFromPeer_ok (h : session.validateEventFromPeer crypto event = .ok ()) :
    crypto.verify event = .ok () ∧ ∀ peer, session.peerPubkey = some peer →
      event.pubkey = peer := by
  obtain ⟨_, hbasics, hpeer⟩ := except_bind_ok h
  refine ⟨validateEventBasics_ok hbasics, ?_⟩
  intro peer hsome
  simp only [hsome] at hpeer
  split_ifs at hpeer with heq
  exact heq

theorem messageFromPeer_ok {role : Role}
    (h : session.messageFromPeer crypto env state role event = .ok message) :
    session.state = state ∧ session.role = role ∧ Received crypto session event message ∧
      ∀ peer, session.peerPubkey = some peer → event.pubkey = peer := by
  obtain ⟨_, hexpect, h⟩ := except_bind_ok h
  obtain ⟨_, hvalid, hdecrypted⟩ := except_bind_ok h
  obtain ⟨hstate, hrole⟩ := expect_ok hexpect
  obtain ⟨hverified, hpeer⟩ := validateEventFromPeer_ok hvalid
  exact ⟨hstate, hrole, ⟨hverified, hdecrypted⟩, hpeer⟩

theorem acceptOffer_ok (h : session.acceptOffer crypto env event = .ok ()) :
    session.state = .waiting ∧ session.role = .source ∧ ∃ sessionId,
      Received crypto session event (.offer sessionId 1) ∧
        hexDecode32 sessionId = some session.sessionId := by
  obtain ⟨_, hexpect, h⟩ := except_bind_ok h
  obtain ⟨_, hbasics, h⟩ := except_bind_ok h
  obtain ⟨message, hdecrypted, h⟩ := except_bind_ok h
  obtain ⟨hstate, hrole⟩ := expect_ok hexpect
  refine ⟨hstate, hrole, ?_⟩
  cases message with
  | offer sessionId version =>
      simp only at h
      split_ifs at h with hversion hid
      obtain rfl := not_not.mp hversion
      exact ⟨sessionId, ⟨validateEventBasics_ok hbasics, hdecrypted⟩, hid⟩
  | sasConfirm | payload | complete | abort => cases h

theorem decryptMessage_ok (h : session.decryptMessage crypto event = .ok message) :
    ∃ text, crypto.decrypt session.keys event.pubkey event.content = .ok text ∧
      crypto.fromJson text = .ok message := by
  unfold PairingSession.decryptMessage at h
  simp only at h
  split_ifs at h
  split at h
  · cases h
  · rename_i text htext
    split_ifs at h
    refine ⟨text, htext, ?_⟩
    cases hjson : crypto.fromJson text with
    | error e =>
        rw [hjson] at h
        cases h
    | ok read =>
        rw [hjson] at h
        exact congrArg Except.ok (Except.ok.inj h)

theorem not_terminal_of_eq (h : session.state = state)
    (hlive : state.isTerminal = false) : session.state.isTerminal = false := by
  rw [h]
  exact hlive

theorem handleOffer_transition (lawful : crypto.Lawful) (event : Event) :
    Transition crypto session env (.handleOffer event)
      (session.call crypto env (.handleOffer event)).1
      (session.call crypto env (.handleOffer event)).2 := by
  simp only [PairingSession.call, replied, PairingSession.handleOffer]
  cases haccept : session.acceptOffer crypto env event with
  | error e => exact .refused _ e
  | ok _ =>
      obtain ⟨hstate, hrole, sessionId, hreceived, hid⟩ := acceptOffer_ok haccept
      obtain ⟨text, htext, -⟩ := decryptMessage_ok hreceived.decrypted
      obtain ⟨shared, hshared⟩ := lawful.sharedKey_of_decrypt _ _ _ _ htext
      simp only [hshared]
      exact .offered _ hrole hstate hreceived hid hshared (sameParty_state _ _ _) rfl

theorem confirmSas_transition :
    Transition crypto session env .confirmSas (session.call crypto env .confirmSas).1
      (session.call crypto env .confirmSas).2 := by
  simp only [PairingSession.call, replied, PairingSession.confirmSas, PairingSession.advance]
  cases hevent : session.sasConfirmEvent crypto env with
  | error e => exact .refused _ e
  | ok event =>
      obtain ⟨_, hexpect, -⟩ := except_bind_ok hevent
      obtain ⟨hstate, hrole⟩ := expect_ok hexpect
      exact .confirmed event hrole hstate (sameParty_state _ _ _) rfl

theorem sendPayload_transition (payloadType : PayloadType) (payload : String) :
    Transition crypto session env (.sendPayload payloadType payload)
      (session.call crypto env (.sendPayload payloadType payload)).1
      (session.call crypto env (.sendPayload payloadType payload)).2 := by
  simp only [PairingSession.call, replied, PairingSession.sendPayload, PairingSession.advance]
  cases hevent : session.payloadEvent crypto env payloadType payload with
  | error e => exact .refused _ e
  | ok event =>
      obtain ⟨_, hexpect, hbuild⟩ := except_bind_ok hevent
      obtain ⟨hstate, hrole⟩ := expect_ok hexpect
      exact .released hrole hstate hbuild (sameParty_state _ _ _) rfl

theorem handleComplete_transition (event : Event) :
    Transition crypto session env (.handleComplete event)
      (session.call crypto env (.handleComplete event)).1
      (session.call crypto env (.handleComplete event)).2 := by
  simp only [PairingSession.call, replied, PairingSession.handleComplete]
  split
  · exact .refused _ _
  · rename_i hmessage
    exact .finished _ rfl (messageFromPeer_ok hmessage).1 (sameParty_state _ _ _) rfl
  · rename_i hmessage
    have hstate := (messageFromPeer_ok hmessage).1
    exact .ended _ rfl (not_terminal_of_eq hstate rfl) (sameParty_state _ _ _) rfl
  · exact .refused _ _

theorem handleSasConfirm_transition (event : Event) :
    Transition crypto session env (.handleSasConfirm event)
      (session.call crypto env (.handleSasConfirm event)).1
      (session.call crypto env (.handleSasConfirm event)).2 := by
  simp only [PairingSession.call, replied, PairingSession.handleSasConfirm]
  split
  · exact .refused _ _
  · rename_i hash hmessage
    obtain ⟨hstate, hrole, hreceived, hpeer⟩ := messageFromPeer_ok hmessage
    cases hown : session.targetTranscript crypto with
    | error e => exact .refused _ e
    | ok own =>
        simp only
        split_ifs with hmatch
        · refine .matched hrole hstate hreceived hpeer hown hmatch (sameParty_state _ _ _) rfl ?_
          intro code hcode
          rw [hcode]
          rfl
        · exact .ended _ rfl (not_terminal_of_eq hstate rfl) (sameParty_state _ _ _) rfl
  · exact .refused _ _

theorem confirmTargetSas_transition :
    Transition crypto session env .confirmTargetSas (session.call crypto env .confirmTargetSas).1
      (session.call crypto env .confirmTargetSas).2 := by
  simp only [PairingSession.call, replied, PairingSession.confirmTargetSas, PairingSession.advance]
  cases hexpect : session.expect env .awaitingConfirmation .target with
  | error e => exact .refused _ e
  | ok _ =>
      obtain ⟨hstate, hrole⟩ := expect_ok hexpect
      exact .approved hrole hstate (sameParty_state _ _ _) rfl

theorem handlePayload_transition (event : Event) :
    Transition crypto session env (.handlePayload event)
      (session.call crypto env (.handlePayload event)).1
      (session.call crypto env (.handlePayload event)).2 := by
  simp only [PairingSession.call, replied, PairingSession.handlePayload]
  split
  · exact .refused _ _
  · rename_i payloadType payload hmessage
    obtain ⟨hstate, hrole, hreceived, hpeer⟩ := messageFromPeer_ok hmessage
    exact .received hrole hstate hreceived hpeer (sameParty_state _ _ _) rfl
  · exact .refused _ _

theorem sendComplete_transition :
    Transition crypto session env .sendComplete (session.call crypto env .sendComplete).1
      (session.call crypto env .sendComplete).2 := by
  simp only [PairingSession.call, replied, PairingSession.sendComplete, PairingSession.advance]
  cases hevent : session.completeEvent crypto env with
  | error e => exact .refused _ e
  | ok event =>
      obtain ⟨_, hexpect, -⟩ := except_bind_ok hevent
      exact .finished _ rfl (expect_ok hexpect).1 (sameParty_state _ _ _) rfl

theorem abort_transition (reason : AbortReason) :
    Transition crypto session env (.abort reason) (session.call crypto env (.abort reason)).1
      (session.call crypto env (.abort reason)).2 := by
  simp only [PairingSession.call, replied, PairingSession.abort]
  split_ifs with hterminal hpeer
  · exact .refused _ _
  · exact .ended _ rfl (Bool.eq_false_iff.mpr hterminal) (sameParty_state _ _ _) rfl
  · simp only [PairingSession.advance]
    cases session.buildEvent crypto env (.abort reason) with
    | error e => exact .refused _ e
    | ok event => exact .ended _ rfl (Bool.eq_false_iff.mpr hterminal) (sameParty_state _ _ _) rfl

theorem handleAbort_transition (event : Event) :
    Transition crypto session env (.handleAbort event)
      (session.call crypto env (.handleAbort event)).1
      (session.call crypto env (.handleAbort event)).2 := by
  simp only [PairingSession.call, replied, PairingSession.handleAbort]
  split_ifs with hterminal hpeer
  · exact .refused _ _
  · exact .refused _ _
  · split
    · exact .refused _ _
    · exact .ended _ rfl (Bool.eq_false_iff.mpr hterminal) (sameParty_state _ _ _) rfl
    · exact .refused _ _

theorem call_transition (lawful : crypto.Lawful) (call : PairingCall) :
    Transition crypto session env call (session.call crypto env call).1
      (session.call crypto env call).2 := by
  cases call with
  | handleOffer event => exact handleOffer_transition lawful event
  | confirmSas => exact confirmSas_transition
  | sendPayload payloadType payload => exact sendPayload_transition payloadType payload
  | handleComplete event => exact handleComplete_transition event
  | handleSasConfirm event => exact handleSasConfirm_transition event
  | confirmTargetSas => exact confirmTargetSas_transition
  | handlePayload event => exact handlePayload_transition event
  | sendComplete => exact sendComplete_transition
  | abort reason => exact abort_transition reason
  | handleAbort event => exact handleAbort_transition event

theorem Transition.terminal {reply : Except PairingError PairingReply}
    (h : Transition crypto session env call next reply)
      (hterminal : session.state.isTerminal = true) :
    next = session := by
  cases h with
  | refused => rfl
  | ended _ _ hlive => rw [hlive] at hterminal; cases hterminal
  | offered _ _ hstate | confirmed _ _ hstate | released _ hstate | matched _ hstate
  | approved _ hstate | received _ hstate | finished _ _ hstate =>
      rw [hstate] at hterminal; cases hterminal

/-- Only an accepted offer changes the peer, and only while the session waits. -/
theorem Transition.sameParty_or_offered {reply : Except PairingError PairingReply}
    (h : Transition crypto session env call next reply) :
    SameParty session next ∨ ∃ event sessionId, call = .handleOffer event ∧
      session.role = .source ∧ session.state = .waiting ∧
      Received crypto session event (.offer sessionId 1) ∧
      hexDecode32 sessionId = some session.sessionId ∧ next.peerPubkey = some event.pubkey ∧
      next.keys = session.keys ∧ next.sessionId = session.sessionId := by
  cases h with
  | refused => exact Or.inl ⟨rfl, rfl, rfl, rfl, rfl, rfl, rfl⟩
  | offered _ hrole hstate hreceived hid _ hsame =>
      exact Or.inr ⟨_, _, rfl, hrole, hstate, hreceived, hid, hsame.peerPubkey, hsame.keys,
        hsame.sessionId⟩
  | ended _ _ _ hsame | confirmed _ _ _ hsame | released _ _ _ hsame | matched _ _ _ _ _ _ hsame
  | approved _ _ hsame | received _ _ _ _ hsame | finished _ _ _ hsame => exact Or.inl hsame

theorem pubkey_congr {s t : PairingSession} (h : t.keys = s.keys) :
    t.pubkey crypto = s.pubkey crypto :=
  congrArg crypto.publicKey h

theorem buildEvent_ok (h : session.buildEvent crypto env message = .ok event) :
    ∃ peer text, session.peerPubkey = some peer ∧ crypto.toJson message = .ok text ∧
      crypto.encrypt session.keys peer env.nonce text = .ok event.content ∧
      event.tags = [["p", hexEncode peer.1]] := by
  unfold PairingSession.buildEvent at h
  split at h
  · cases h
  · rename_i peer hpeer
    obtain ⟨text, htext, h⟩ := except_bind_ok h
    obtain ⟨content, hcontent, h⟩ := except_bind_ok h
    obtain ⟨sig, -, h⟩ := except_bind_ok h
    obtain rfl := Except.ok.inj h
    exact ⟨peer, text, hpeer, mapError_ok htext, mapError_ok hcontent, rfl⟩

theorem emitted_advance {checked : Except PairingError Event}
    (h : event ∈ (PairingEntry.mk call (replied .event
      (session.advance checked state)).2).emitted) :
    checked = .ok event := by
  cases checked with
  | error e => simp [replied, PairingSession.advance, PairingEntry.emitted, Except.map] at h
  | ok built =>
      simp only [replied, PairingSession.advance, PairingEntry.emitted, Except.map,
        List.mem_singleton] at h
      rw [h]

/-- Every event a call hands out is built by the session and is no offer. -/
theorem emitted_built
    (h : event ∈ (PairingEntry.mk call (session.call crypto env call).2).emitted) :
    ∃ message, session.buildEvent crypto env message = .ok event ∧
      ∀ id version, message ≠ .offer id version := by
  cases call with
  | confirmSas =>
      obtain ⟨_, -, hevent⟩ := except_bind_ok (emitted_advance h)
      obtain ⟨hash, -, hbuild⟩ := except_bind_ok hevent
      exact ⟨_, hbuild, by simp⟩
  | sendPayload payloadType payload | sendComplete =>
      obtain ⟨_, -, hbuild⟩ := except_bind_ok (emitted_advance h)
      exact ⟨_, hbuild, by simp⟩
  | abort reason =>
      simp only [PairingSession.call, replied, PairingSession.abort] at h
      split_ifs at h
      · simp [PairingEntry.emitted, Except.map] at h
      · simp [PairingEntry.emitted, Except.map] at h
      · simp only [PairingSession.advance] at h
        cases hbuild : session.buildEvent crypto env (.abort reason) with
        | error e => simp [hbuild, PairingEntry.emitted, Except.map] at h
        | ok built =>
            simp only [hbuild, PairingEntry.emitted, Except.map, List.mem_singleton] at h
            subst h
            exact ⟨_, hbuild, by simp⟩
  | handleOffer other | handleSasConfirm other | handleComplete other | confirmTargetSas
  | handlePayload other | handleAbort other => exact absurd h (not_emitted (by simp))

end Transitions

section Statements

variable (crypto : PairingCrypto) (start : PairingSession)

/-- The source accepted an offer with its session id from this peer. -/
def AcceptedOffer (peer : Bytes32) (log : List PairingEntry) : Prop :=
  ∃ event sessionId code, ⟨.handleOffer event, .ok (.sas code)⟩ ∈ log ∧
    Received crypto start event (.offer sessionId 1) ∧
    hexDecode32 sessionId = some start.sessionId ∧ event.pubkey = peer

/-- The user confirmed the code after that. -/
def ConfirmedOffer (peer : Bytes32) (log : List PairingEntry) : Prop :=
  ∃ before event after, log = before ++ ⟨.confirmSas, .ok (.event event)⟩ :: after ∧
    AcceptedOffer crypto start peer before

/-- The entry emits a payload that only this peer can open. -/
def SealedPayload (peer : Bytes32) (entry : PairingEntry) : Prop :=
  ∃ payloadType payload event nonce text,
    entry = ⟨.sendPayload payloadType payload, .ok (.event event)⟩ ∧
    crypto.toJson (.payload payloadType payload) = .ok text ∧
    crypto.encrypt start.keys peer nonce text = .ok event.content ∧
    event.tags = [["p", hexEncode peer.1]]

def ReleasedOnce : List PairingEntry → Prop :=
  OnlyAfter (fun entry => entry.emittedPayload ≠ none) fun before entry =>
    ∃ peer, SealedPayload crypto start peer entry ∧ ConfirmedOffer crypto start peer before

/-- The source of the QR code sent the target's own transcript hash. -/
def MatchedTranscript (qr : QrPayload) (log : List PairingEntry) : Prop :=
  ∃ event hash code own, ⟨.handleSasConfirm event, .ok (.sas code)⟩ ∈ log ∧
    Received crypto start event (.sasConfirm hash) ∧ event.pubkey = qr.sourcePubkey ∧
    start.targetTranscript crypto = .ok own ∧ hexDecode32 hash = some own

/-- The user approved the code after that. -/
def ApprovedTranscript (qr : QrPayload) (log : List PairingEntry) : Prop :=
  ∃ before after, log = before ++ ⟨.confirmTargetSas, .ok .done⟩ :: after ∧
    MatchedTranscript crypto start qr before

/-- The entry returns what the source of the QR code sent. -/
def OpenedPayload (qr : QrPayload) (entry : PairingEntry) : Prop :=
  ∃ event payloadType payload, entry = ⟨.handlePayload event, .ok (.payload payloadType payload)⟩ ∧
    Received crypto start event (.payload payloadType payload) ∧ event.pubkey = qr.sourcePubkey

def ReceivedOnce (qr : QrPayload) : List PairingEntry → Prop :=
  OnlyAfter (fun entry => entry.returnedPayload ≠ none) fun before entry =>
    OpenedPayload crypto start qr entry ∧ ApprovedTranscript crypto start qr before

end Statements

section Sessions

variable {crypto : PairingCrypto} {start session next : PairingSession} {env : Surroundings}
  {log : List PairingEntry} {call : PairingCall} {reply : Except PairingError PairingReply}
variable {entry : PairingEntry} {event : Event}

theorem AcceptedOffer.append {peer : Bytes32} (h : AcceptedOffer crypto start peer log)
    (entry : PairingEntry) : AcceptedOffer crypto start peer (log ++ [entry]) := by
  obtain ⟨event, sessionId, code, hmem, hrest⟩ := h
  exact ⟨event, sessionId, code, List.mem_append_left _ hmem, hrest⟩

theorem ConfirmedOffer.append {peer : Bytes32} (h : ConfirmedOffer crypto start peer log)
    (entry : PairingEntry) : ConfirmedOffer crypto start peer (log ++ [entry]) := by
  obtain ⟨before, event, after, rfl, haccepted⟩ := h
  exact ⟨before, event, after ++ [entry], by simp, haccepted⟩

theorem MatchedTranscript.append {qr : QrPayload} (h : MatchedTranscript crypto start qr log)
    (entry : PairingEntry) : MatchedTranscript crypto start qr (log ++ [entry]) := by
  obtain ⟨event, hash, code, own, hmem, hrest⟩ := h
  exact ⟨event, hash, code, own, List.mem_append_left _ hmem, hrest⟩

theorem ApprovedTranscript.append {qr : QrPayload} (h : ApprovedTranscript crypto start qr log)
    (entry : PairingEntry) : ApprovedTranscript crypto start qr (log ++ [entry]) := by
  obtain ⟨before, after, rfl, hmatched⟩ := h
  exact ⟨before, after ++ [entry], by simp, hmatched⟩

/-- The code and the bytes behind it come from the secret shared with the peer. -/
def SasDerived (crypto : PairingCrypto) (s : PairingSession) (peer : Bytes32) : Prop :=
  ∃ shared, crypto.generateSharedKey s.keys peer = .ok shared ∧
    s.sasCode = some (crypto.deriveSas shared s.sessionSecret).1 ∧
    s.sasInput = some (crypto.deriveSas shared s.sessionSecret).2

theorem SasDerived.same {s t : PairingSession} {peer : Bytes32} (h : SasDerived crypto s peer)
    (hsame : SameParty s t) : SasDerived crypto t peer := by
  obtain ⟨shared, hshared, hcode, hinput⟩ := h
  refine ⟨shared, ?_, ?_, ?_⟩
  · rw [hsame.keys]
    exact hshared
  · rw [hsame.sasCode, hsame.sessionSecret]
    exact hcode
  · rw [hsame.sasInput, hsame.sessionSecret]
    exact hinput

def SessionState.beforePayload (state : SessionState) : Prop :=
  state = .waiting ∨ state = .confirming ∨ state = .awaitingConfirmation ∨ state = .transferring

/-- What holds of a source and its log. -/
structure SourceInvariant (crypto : PairingCrypto) (start s : PairingSession)
    (log : List PairingEntry) : Prop where
  role : s.role = .source
  keys : s.keys = start.keys
  sessionSecret : s.sessionSecret = start.sessionSecret
  sessionId : s.sessionId = start.sessionId
  waiting : s.state = .waiting → s.peerPubkey = none
  sas : ∀ peer, s.peerPubkey = some peer → SasDerived crypto s peer
  unsent : s.state.beforePayload → ∀ entry ∈ log, ¬entry.emittedPayload ≠ none
  offered : s.state = .confirming → ∃ peer, s.peerPubkey = some peer ∧
    AcceptedOffer crypto start peer log
  confirmed : s.state = .transferring → ∃ peer, s.peerPubkey = some peer ∧
    ConfirmedOffer crypto start peer log
  released : ReleasedOnce crypto start log

theorem emittedPayload_of_not_carries (h : call.carriesPayload = false) :
    ¬(PairingEntry.mk call reply).emittedPayload ≠ none := by
  cases call <;> simp_all [PairingCall.carriesPayload, PairingEntry.emittedPayload]

theorem returnedPayload_of_not_carries (h : call.carriesPayload = false) :
    ¬(PairingEntry.mk call reply).returnedPayload ≠ none := by
  cases call <;> simp_all [PairingCall.carriesPayload, PairingEntry.returnedPayload]

theorem none_append {P : PairingEntry → Prop} (h : ∀ other ∈ log, ¬P other)
    (hentry : ¬P entry) : ∀ other ∈ log ++ [entry], ¬P other := by
  intro other hother
  rcases List.mem_append.mp hother with hold | hnew
  · exact h other hold
  · obtain rfl := List.mem_singleton.mp hnew
    exact hentry

/-- An entry that emits nothing and leaves the session as it is. -/
theorem SourceInvariant.quiet (h : SourceInvariant crypto start session log)
    (hentry : ¬entry.emittedPayload ≠ none) :
    SourceInvariant crypto start session (log ++ [entry]) where
  role := h.role
  keys := h.keys
  sessionSecret := h.sessionSecret
  sessionId := h.sessionId
  waiting := h.waiting
  sas := h.sas
  unsent := fun hstate => none_append (h.unsent hstate) hentry
  offered := fun hstate => by
    obtain ⟨peer, hpeer, haccepted⟩ := h.offered hstate
    exact ⟨peer, hpeer, haccepted.append entry⟩
  confirmed := fun hstate => by
    obtain ⟨peer, hpeer, hconfirmed⟩ := h.confirmed hstate
    exact ⟨peer, hpeer, hconfirmed.append entry⟩
  released := h.released.append_other hentry

/-- A move to a state in which nothing is sent any more. -/
theorem SourceInvariant.settle (h : SourceInvariant crypto start session log)
    (hsame : SameParty session next) (hstate : ¬next.state.beforePayload)
    (hreleased : ReleasedOnce crypto start (log ++ [entry])) :
    SourceInvariant crypto start next (log ++ [entry]) where
  role := hsame.role.trans h.role
  keys := hsame.keys.trans h.keys
  sessionSecret := hsame.sessionSecret.trans h.sessionSecret
  sessionId := hsame.sessionId.trans h.sessionId
  waiting := fun hwaiting => absurd (Or.inl hwaiting) hstate
  sas := fun peer hpeer => (h.sas peer (hsame.peerPubkey ▸ hpeer)).same hsame
  unsent := fun hbefore => absurd hbefore hstate
  offered := fun hconfirming => absurd (Or.inr (Or.inl hconfirming)) hstate
  confirmed := fun htransferring => absurd (Or.inr (Or.inr (Or.inr htransferring))) hstate
  released := hreleased

theorem not_beforePayload {state : SessionState} (h : session.state = state)
    (hlate : ¬state.beforePayload) : ¬session.state.beforePayload := by
  rw [h]
  exact hlate

theorem SourceInvariant.offer (h : SourceInvariant crypto start session log)
    {sessionId code : String} {shared : Bytes32} (hwaiting : session.state = .waiting)
    (hreceived : Received crypto session event (.offer sessionId 1))
    (hid : hexDecode32 sessionId = some session.sessionId)
    (hshared : crypto.generateSharedKey session.keys event.pubkey = .ok shared)
    (hsame : SameParty { session with
      peerPubkey := some event.pubkey
      sasCode := some (crypto.deriveSas shared session.sessionSecret).1
      sasInput := some (crypto.deriveSas shared session.sessionSecret).2 } next)
    (hstate : next.state = .confirming) :
    SourceInvariant crypto start next (log ++ [⟨.handleOffer event, .ok (.sas code)⟩]) where
  role := hsame.role.trans h.role
  keys := hsame.keys.trans h.keys
  sessionSecret := hsame.sessionSecret.trans h.sessionSecret
  sessionId := hsame.sessionId.trans h.sessionId
  waiting := fun hnext => by
    rw [hstate] at hnext
    cases hnext
  sas := fun peer hpeer => by
    have heq : some event.pubkey = some peer := hsame.peerPubkey.symm.trans hpeer
    obtain rfl := Option.some.inj heq
    have hderived : SasDerived crypto { session with
        peerPubkey := some event.pubkey
        sasCode := some (crypto.deriveSas shared session.sessionSecret).1
        sasInput := some (crypto.deriveSas shared session.sessionSecret).2 } event.pubkey :=
      ⟨shared, hshared, rfl, rfl⟩
    exact hderived.same hsame
  unsent := fun _ =>
    none_append (h.unsent (Or.inl hwaiting)) (emittedPayload_of_not_carries rfl)
  offered := fun _ => by
    refine ⟨event.pubkey, hsame.peerPubkey, event, sessionId, code, by simp, ?_, ?_, rfl⟩
    · exact hreceived.congr h.keys.symm
    · rw [hid, h.sessionId]
  confirmed := fun hnext => by
    rw [hstate] at hnext
    cases hnext
  released := h.released.append_other (emittedPayload_of_not_carries rfl)

theorem SourceInvariant.confirm (h : SourceInvariant crypto start session log)
    (hconfirming : session.state = .confirming) (hsame : SameParty session next)
    (hstate : next.state = .transferring) :
    SourceInvariant crypto start next (log ++ [⟨.confirmSas, .ok (.event event)⟩]) where
  role := hsame.role.trans h.role
  keys := hsame.keys.trans h.keys
  sessionSecret := hsame.sessionSecret.trans h.sessionSecret
  sessionId := hsame.sessionId.trans h.sessionId
  waiting := fun hnext => by
    rw [hstate] at hnext
    cases hnext
  sas := fun peer hpeer => (h.sas peer (hsame.peerPubkey ▸ hpeer)).same hsame
  unsent := fun _ =>
    none_append (h.unsent (Or.inr (Or.inl hconfirming))) (emittedPayload_of_not_carries rfl)
  offered := fun hnext => by
    rw [hstate] at hnext
    cases hnext
  confirmed := fun _ => by
    obtain ⟨peer, hpeer, haccepted⟩ := h.offered hconfirming
    exact ⟨peer, hsame.peerPubkey.trans hpeer, log, event, [], rfl, haccepted⟩
  released := h.released.append_other (emittedPayload_of_not_carries rfl)

theorem SourceInvariant.step (h : SourceInvariant crypto start session log)
    (htransition : Transition crypto session env call next reply) :
    SourceInvariant crypto start next (log ++ [⟨call, reply⟩]) := by
  cases htransition with
  | refused call error =>
      refine h.quiet ?_
      cases call <;> simp [PairingEntry.emittedPayload]
  | ended reply hcall _ hsame hstate =>
      exact h.settle hsame (not_beforePayload hstate (by simp [SessionState.beforePayload]))
        (h.released.append_other (emittedPayload_of_not_carries hcall))
  | offered code _ hwaiting hreceived hid hshared hsame hstate =>
      exact h.offer hwaiting hreceived hid hshared hsame hstate
  | confirmed event _ hconfirming hsame hstate => exact h.confirm hconfirming hsame hstate
  | released _ htransferring hbuild hsame hstate =>
      refine h.settle hsame (not_beforePayload hstate (by simp [SessionState.beforePayload])) ?_
      refine onlyAfter_append_first (h.unsent (Or.inr (Or.inr (Or.inr htransferring)))) ?_
      obtain ⟨peer, hpeer, hconfirmed⟩ := h.confirmed htransferring
      obtain ⟨peer', text, hpeer', hjson, hcontent, htags⟩ := buildEvent_ok hbuild
      obtain rfl : peer = peer' := Option.some.inj (hpeer.symm.trans hpeer')
      rw [h.keys] at hcontent
      exact ⟨peer, ⟨_, _, _, _, text, rfl, hjson, hcontent, htags⟩, hconfirmed⟩
  | finished reply hcall _ hsame hstate =>
      exact h.settle hsame (not_beforePayload hstate (by simp [SessionState.beforePayload]))
        (h.released.append_other (emittedPayload_of_not_carries hcall))
  | matched hrole | approved hrole | received hrole =>
      rw [h.role] at hrole
      cases hrole

/-- What holds of a target and its log. -/
structure TargetInvariant (crypto : PairingCrypto) (start : PairingSession) (qr : QrPayload)
    (s : PairingSession) (log : List PairingEntry) : Prop where
  role : s.role = .target
  same : SameParty start s
  unreceived : s.state.beforePayload → ∀ entry ∈ log, ¬entry.returnedPayload ≠ none
  matched : s.state = .awaitingConfirmation → MatchedTranscript crypto start qr log
  approved : s.state = .transferring → ApprovedTranscript crypto start qr log
  received : ReceivedOnce crypto start qr log

variable {qr : QrPayload}

theorem TargetInvariant.quiet (h : TargetInvariant crypto start qr session log)
    (hentry : ¬entry.returnedPayload ≠ none) :
    TargetInvariant crypto start qr session (log ++ [entry]) where
  role := h.role
  same := h.same
  unreceived := fun hstate => none_append (h.unreceived hstate) hentry
  matched := fun hstate => (h.matched hstate).append entry
  approved := fun hstate => (h.approved hstate).append entry
  received := h.received.append_other hentry

theorem TargetInvariant.settle (h : TargetInvariant crypto start qr session log)
    (hsame : SameParty session next) (hstate : ¬next.state.beforePayload)
    (hreceived : ReceivedOnce crypto start qr (log ++ [entry])) :
    TargetInvariant crypto start qr next (log ++ [entry]) where
  role := hsame.role.trans h.role
  same := h.same.trans hsame
  unreceived := fun hbefore => absurd hbefore hstate
  matched := fun hawaiting => absurd (Or.inr (Or.inr (Or.inl hawaiting))) hstate
  approved := fun htransferring => absurd (Or.inr (Or.inr (Or.inr htransferring))) hstate
  received := hreceived

theorem TargetInvariant.match (h : TargetInvariant crypto start qr session log)
    {hash code : String} {own : Bytes32} (hpeer : event.pubkey = qr.sourcePubkey)
    (hreceived : Received crypto session event (.sasConfirm hash))
    (hown : start.targetTranscript crypto = .ok own) (hhash : hexDecode32 hash = some own)
    (hconfirming : session.state = .confirming) (hsame : SameParty session next)
    (hstate : next.state = .awaitingConfirmation) :
    TargetInvariant crypto start qr next (log ++ [⟨.handleSasConfirm event, .ok (.sas code)⟩]) where
  role := hsame.role.trans h.role
  same := h.same.trans hsame
  unreceived := fun _ =>
    none_append (h.unreceived (Or.inr (Or.inl hconfirming))) (returnedPayload_of_not_carries rfl)
  matched := fun _ =>
    ⟨event, hash, code, own, by simp, hreceived.congr h.same.keys.symm, hpeer, hown, hhash⟩
  approved := fun hnext => by
    rw [hstate] at hnext
    cases hnext
  received := h.received.append_other (returnedPayload_of_not_carries rfl)

theorem TargetInvariant.approve (h : TargetInvariant crypto start qr session log)
    (hawaiting : session.state = .awaitingConfirmation) (hsame : SameParty session next)
    (hstate : next.state = .transferring) :
    TargetInvariant crypto start qr next (log ++ [⟨.confirmTargetSas, .ok .done⟩]) where
  role := hsame.role.trans h.role
  same := h.same.trans hsame
  unreceived := fun _ =>
    none_append (h.unreceived (Or.inr (Or.inr (Or.inl hawaiting))))
      (returnedPayload_of_not_carries rfl)
  matched := fun hnext => by
    rw [hstate] at hnext
    cases hnext
  approved := fun _ => ⟨log, [], rfl, h.matched hawaiting⟩
  received := h.received.append_other (returnedPayload_of_not_carries rfl)

theorem targetTranscript_same (hsame : SameParty start session) :
    session.targetTranscript crypto = start.targetTranscript crypto := by
  unfold PairingSession.targetTranscript PairingSession.pubkey
  rw [hsame.sasInput, hsame.peerPubkey, hsame.sessionId, hsame.keys, hsame.sessionSecret]

theorem TargetInvariant.step (h : TargetInvariant crypto start qr session log)
    (hqr : start.peerPubkey = some qr.sourcePubkey) (hcode : ∃ code, start.sasCode = some code)
    (htransition : Transition crypto session env call next reply) :
    TargetInvariant crypto start qr next (log ++ [⟨call, reply⟩]) := by
  have hpeer : session.peerPubkey = some qr.sourcePubkey := h.same.peerPubkey.trans hqr
  cases htransition with
  | refused call error =>
      refine h.quiet ?_
      cases call <;> simp [PairingEntry.returnedPayload]
  | ended reply hcall _ hsame hstate =>
      exact h.settle hsame (not_beforePayload hstate (by simp [SessionState.beforePayload]))
        (h.received.append_other (returnedPayload_of_not_carries hcall))
  | matched _ hconfirming hreceived hfrom hown hhash hsame hstate hreply =>
      obtain ⟨code, hcode⟩ := hcode
      rw [hreply code (h.same.sasCode.trans hcode)]
      rw [targetTranscript_same h.same] at hown
      exact h.match (hfrom _ hpeer) hreceived hown hhash hconfirming hsame hstate
  | approved _ hawaiting hsame hstate => exact h.approve hawaiting hsame hstate
  | received _ htransferring hreceived hfrom hsame hstate =>
      refine h.settle hsame (not_beforePayload hstate (by simp [SessionState.beforePayload])) ?_
      refine onlyAfter_append_first (h.unreceived (Or.inr (Or.inr (Or.inr htransferring)))) ?_
      exact ⟨⟨_, _, _, rfl, hreceived.congr h.same.keys.symm, hfrom _ hpeer⟩,
        h.approved htransferring⟩
  | finished reply hcall _ hsame hstate =>
      exact h.settle hsame (not_beforePayload hstate (by simp [SessionState.beforePayload]))
        (h.received.append_other (returnedPayload_of_not_carries hcall))
  | offered _ hrole | confirmed _ hrole | released hrole =>
      rw [h.role] at hrole
      cases hrole

end Sessions

/-- Both sessions, their logs and what the relay has seen. -/
structure PairingWorld where
  source : PairingSession
  target : PairingSession
  sourceLog : List PairingEntry
  targetLog : List PairingEntry
  sent : List Event

/-- A source that just showed its QR code and a target that just scanned one. -/
structure PairingWorld.Start (crypto : PairingCrypto) (qr : QrPayload) (w : PairingWorld) :
    Prop where
  source : ∃ env keys secret relay, w.source =
    (PairingSession.newSource crypto env keys secret relay).1
  target : ∃ env keys offer, PairingSession.newTarget crypto env keys qr = .ok (w.target, offer) ∧
    w.sent = [offer]
  sourceLog : w.sourceLog = []
  targetLog : w.targetLog = []

/-- NIP-44 is unforgeable: what opens under the key of the two sessions was sent by one of them. -/
def Authentic (crypto : PairingCrypto) (w : PairingWorld) (call : PairingCall) : Prop :=
  ∀ event, call.event? = some event → ∀ text,
    crypto.decrypt w.source.keys (w.target.pubkey crypto) event.content = .ok text ∨
      crypto.decrypt w.target.keys (w.source.pubkey crypto) event.content = .ok text →
    ∃ sent ∈ w.sent, sent.content = event.content

section Steps

variable (crypto : PairingCrypto) (w : PairingWorld)

def PairingWorld.sourceCall (env : Surroundings) (call : PairingCall) : PairingWorld :=
  let result := w.source.call crypto env call
  { w with
    source := result.1
    sourceLog := w.sourceLog ++ [⟨call, result.2⟩]
    sent := w.sent ++ (PairingEntry.mk call result.2).emitted }

def PairingWorld.targetCall (env : Surroundings) (call : PairingCall) : PairingWorld :=
  let result := w.target.call crypto env call
  { w with
    target := result.1
    targetLog := w.targetLog ++ [⟨call, result.2⟩]
    sent := w.sent ++ (PairingEntry.mk call result.2).emitted }

inductive PairingStep : PairingWorld → Prop where
  | source (env : Surroundings) (call : PairingCall) : Authentic crypto w call →
      PairingStep (w.sourceCall crypto env call)
  | target (env : Surroundings) (call : PairingCall) : Authentic crypto w call →
      PairingStep (w.targetCall crypto env call)

end Steps

abbrev PairingRun (crypto : PairingCrypto) : PairingWorld → PairingWorld → Prop :=
  Relation.ReflTransGen (PairingStep crypto)

section Runs

variable {crypto : PairingCrypto} {qr : QrPayload} {w₀ w u : PairingWorld}

/-- The target sealed the event for the source of its QR code, and an offer with its session id. -/
def SealedByTarget (crypto : PairingCrypto) (target : PairingSession) (event : Event) : Prop :=
  ∃ message text nonce peer, target.peerPubkey = some peer ∧ crypto.toJson message = .ok text ∧
    crypto.encrypt target.keys peer nonce text = .ok event.content ∧
    ∀ id version, message = .offer id version → id = hexEncode target.sessionId.1

/-- Two sessions that have each other as peers. -/
structure PairedWith (crypto : PairingCrypto) (s t : PairingSession) : Prop where
  source : s.peerPubkey = some (t.pubkey crypto)
  target : t.peerPubkey = some (s.pubkey crypto)

structure PairingInvariant (crypto : PairingCrypto) (qr : QrPayload) (w₀ w : PairingWorld) :
    Prop where
  source : SourceInvariant crypto w₀.source w.source w.sourceLog
  target : TargetInvariant crypto w₀.target qr w.target w.targetLog
  sealed : w.source.peerPubkey = none → ∀ event ∈ w.sent, SealedByTarget crypto w₀.target event
  agreed : PairedWith crypto w.source w.target → w.source.sessionId = w.target.sessionId

theorem sealedByTarget_of_emitted {target : PairingSession} (hsame : SameParty w₀.target target)
    {env : Surroundings} {call : PairingCall} {event : Event}
    (h : event ∈ (PairingEntry.mk call (target.call crypto env call).2).emitted) :
    SealedByTarget crypto w₀.target event := by
  obtain ⟨message, hbuild, hoffer⟩ := emitted_built h
  obtain ⟨peer, text, hpeer, hjson, hcontent, -⟩ := buildEvent_ok hbuild
  rw [hsame.peerPubkey] at hpeer
  rw [hsame.keys] at hcontent
  exact ⟨message, text, env.nonce, peer, hpeer, hjson, hcontent,
    fun id version hmessage => absurd hmessage (hoffer id version)⟩

/-- A session without a peer hands out nothing. -/
theorem emitted_nil_of_no_peer {session : PairingSession} (hpeer : session.peerPubkey = none)
    {env : Surroundings} {call : PairingCall} :
    (PairingEntry.mk call (session.call crypto env call).2).emitted = [] := by
  refine List.eq_nil_iff_forall_not_mem.mpr fun event hevent => ?_
  obtain ⟨message, hbuild, -⟩ := emitted_built hevent
  obtain ⟨peer, text, hsome, -⟩ := buildEvent_ok hbuild
  rw [hpeer] at hsome
  cases hsome

/-- An offer that opens under the key of both sessions carries the session id of the target. -/
theorem PairingInvariant.offer_sessionId (lawful : crypto.Lawful)
    (h : PairingInvariant crypto qr w₀ w) {call : PairingCall} {event : Event} {sessionId : String}
    (hcall : call.event? = some event) (hauthentic : Authentic crypto w call)
    (hfree : w.source.peerPubkey = none)
    (hreceived : Received crypto w.source event (.offer sessionId 1))
    (hfrom : event.pubkey = w.target.pubkey crypto)
    (hto : w.target.peerPubkey = some (w.source.pubkey crypto)) :
    sessionId = hexEncode w.target.sessionId.1 := by
  obtain ⟨text, hdecrypt, hread⟩ := decryptMessage_ok hreceived.decrypted
  rw [hfrom] at hdecrypt
  obtain ⟨sent, hsent, hcontent⟩ := hauthentic event hcall text (Or.inl hdecrypt)
  obtain ⟨message, text', nonce, peer, hpeer, hjson, hencrypt, hoffer⟩ := h.sealed hfree sent hsent
  have hsource : peer = w.source.pubkey crypto := by
    rw [h.target.same.peerPubkey, hpeer] at hto
    exact Option.some.inj hto
  rw [hsource, PairingSession.pubkey] at hencrypt
  have hopen := lawful.decrypt_encrypt _ _ _ _ _ hencrypt
  rw [hcontent, ← h.target.same.keys] at hopen
  have htext : text = text' := Except.ok.inj (hdecrypt.symm.trans hopen)
  rw [← htext] at hjson
  have hmessage : message = .offer sessionId 1 :=
    Except.ok.inj ((lawful.fromJson_toJson _ _ hjson).symm.trans hread)
  rw [h.target.same.sessionId]
  exact hoffer sessionId 1 hmessage

theorem PairingInvariant.sourceStep (lawful : crypto.Lawful) (h : PairingInvariant crypto qr w₀ w)
    (env : Surroundings) {call : PairingCall} (hauthentic : Authentic crypto w call) :
    PairingInvariant crypto qr w₀ (w.sourceCall crypto env call) := by
  have htransition : Transition crypto w.source env call (w.source.call crypto env call).1
      (w.source.call crypto env call).2 := call_transition lawful call
  have hcases := htransition.sameParty_or_offered
  refine ⟨h.source.step htransition, h.target, ?_, ?_⟩
  · intro hnone
    have hbefore : w.source.peerPubkey = none := by
      rcases hcases with hsame | ⟨event, sessionId, -, -, hwaiting, -⟩
      · exact hsame.peerPubkey.symm.trans hnone
      · exact h.source.waiting hwaiting
    simp only [PairingWorld.sourceCall, emitted_nil_of_no_peer hbefore, List.append_nil]
    exact h.sealed hbefore
  · intro hpaired
    have hsource : (w.source.call crypto env call).1.peerPubkey = some (w.target.pubkey crypto) :=
      hpaired.source
    have htarget : w.target.peerPubkey = some ((w.source.call crypto env call).1.pubkey crypto) :=
      hpaired.target
    rcases hcases with hsame |
      ⟨event, sessionId, rfl, -, hwaiting, hreceived, hid, hpeer, hkeys, hsame⟩
    · rw [pubkey_congr hsame.keys] at htarget
      exact hsame.sessionId.trans (h.agreed ⟨hsame.peerPubkey.symm.trans hsource, htarget⟩)
    · rw [pubkey_congr hkeys] at htarget
      have hfrom : event.pubkey = w.target.pubkey crypto :=
        Option.some.inj (hpeer.symm.trans hsource)
      have hsessionId := h.offer_sessionId lawful rfl hauthentic (h.source.waiting hwaiting)
        hreceived hfrom htarget
      rw [hsessionId, hexDecode32_hexEncode] at hid
      exact hsame.trans (Option.some.inj hid).symm

/-- The parts of the start that the target invariant needs. -/
theorem PairingWorld.Start.target_facts (h : w.Start crypto qr) :
    w.target.role = .target ∧ w.target.state = .confirming ∧
      w.target.peerPubkey = some qr.sourcePubkey ∧
      w.target.sessionId = crypto.deriveSessionId w.target.sessionSecret ∧
      SasDerived crypto w.target qr.sourcePubkey ∧
      ∀ event ∈ w.sent, SealedByTarget crypto w.target event := by
  obtain ⟨env, keys, offer, hnew, hsent⟩ := h.target
  obtain ⟨shared, hshared, hnew⟩ := except_bind_ok hnew
  obtain ⟨event, hbuild, hnew⟩ := except_bind_ok hnew
  obtain ⟨htarget, rfl⟩ := Prod.mk.inj (Except.ok.inj hnew)
  rw [← htarget]
  refine ⟨rfl, rfl, rfl, rfl, ⟨shared, mapError_ok hshared, rfl, rfl⟩, ?_⟩
  intro sent hmem
  rw [hsent] at hmem
  obtain rfl := List.mem_singleton.mp hmem
  obtain ⟨peer, text, hpeer, hjson, hcontent, -⟩ := buildEvent_ok hbuild
  refine ⟨_, text, env.nonce, peer, hpeer, hjson, hcontent, ?_⟩
  intro id version hmessage
  exact (PairingMessage.offer.inj hmessage).1.symm

theorem PairingWorld.Start.invariant (h : w.Start crypto qr) : PairingInvariant crypto qr w w := by
  obtain ⟨env, keys, secret, relay, hsource⟩ := h.source
  obtain ⟨hrole, hstate, -, -, -, hsealed⟩ := h.target_facts
  have hstart : w.source.state = .waiting := by rw [hsource]; rfl
  have hfree : w.source.peerPubkey = none := by rw [hsource]; rfl
  refine ⟨?_, ?_, fun _ => hsealed, ?_⟩
  · rw [h.sourceLog]
    refine ⟨by rw [hsource]; rfl, rfl, rfl, rfl, fun _ => hfree, ?_, ?_, ?_, ?_, ?_⟩
    · intro peer hpeer
      rw [hfree] at hpeer
      cases hpeer
    · intro _ entry hentry
      cases hentry
    · intro hconfirming
      rw [hstart] at hconfirming
      cases hconfirming
    · intro htransferring
      rw [hstart] at htransferring
      cases htransferring
    · exact onlyAfter_of_none (by simp)
  · rw [h.targetLog]
    refine ⟨hrole, ⟨rfl, rfl, rfl, rfl, rfl, rfl, rfl⟩, ?_, ?_, ?_, ?_⟩
    · intro _ entry hentry
      cases hentry
    · intro hawaiting
      rw [hstate] at hawaiting
      cases hawaiting
    · intro htransferring
      rw [hstate] at htransferring
      cases htransferring
    · exact onlyAfter_of_none (by simp)
  · intro hpaired
    have hsome := hpaired.source
    rw [hfree] at hsome
    cases hsome

theorem PairingInvariant.targetStep (lawful : crypto.Lawful) (hstart : w₀.Start crypto qr)
    (h : PairingInvariant crypto qr w₀ w) (env : Surroundings) (call : PairingCall) :
    PairingInvariant crypto qr w₀ (w.targetCall crypto env call) := by
  obtain ⟨-, -, hqr, -, ⟨shared, -, hcode, -⟩, -⟩ := hstart.target_facts
  have htransition : Transition crypto w.target env call (w.target.call crypto env call).1
      (w.target.call crypto env call).2 := call_transition lawful call
  have htarget := h.target.step hqr ⟨_, hcode⟩ htransition
  refine ⟨h.source, htarget, ?_, ?_⟩
  · intro hnone event hevent
    rcases List.mem_append.mp hevent with hold | hnew
    · exact h.sealed hnone event hold
    · exact sealedByTarget_of_emitted h.target.same hnew
  · intro hpaired
    have hkeys := htarget.same.keys.trans h.target.same.keys.symm
    have hpeer := htarget.same.peerPubkey.trans h.target.same.peerPubkey.symm
    have hid := htarget.same.sessionId.trans h.target.same.sessionId.symm
    have hsource : w.source.peerPubkey = some ((w.target.call crypto env call).1.pubkey crypto) :=
      hpaired.source
    rw [pubkey_congr hkeys] at hsource
    exact (h.agreed ⟨hsource, hpeer.symm.trans hpaired.target⟩).trans hid.symm

theorem PairingInvariant.step (lawful : crypto.Lawful) (hstart : w₀.Start crypto qr)
    (h : PairingInvariant crypto qr w₀ w) (hstep : PairingStep crypto w u) :
    PairingInvariant crypto qr w₀ u := by
  cases hstep with
  | source env call hauthentic => exact h.sourceStep lawful env hauthentic
  | target env call _ => exact h.targetStep lawful hstart env call

theorem PairingInvariant.run (lawful : crypto.Lawful) (hstart : w₀.Start crypto qr)
    (hrun : PairingRun crypto w₀ w) : PairingInvariant crypto qr w₀ w := by
  induction hrun with
  | refl => exact hstart.invariant
  | tail _ hstep ih => exact ih.step lawful hstart hstep

/-- The peer is never replaced and an end is final. -/
structure SessionKept (s t : PairingSession) : Prop where
  peer : ∀ peer, s.peerPubkey = some peer → t.peerPubkey = some peer
  completed : s.state = .completed → t.state = .completed
  aborted : s.state = .aborted → t.state = .aborted

theorem sessionKept_call (lawful : crypto.Lawful) {session : PairingSession}
    (hwaiting : session.role = .source → session.state = .waiting → session.peerPubkey = none)
    (env : Surroundings) (call : PairingCall) :
      SessionKept session (session.call crypto env call).1 := by
  have htransition : Transition crypto session env call (session.call crypto env call).1
      (session.call crypto env call).2 := call_transition lawful call
  refine ⟨?_, ?_, ?_⟩
  · intro peer hpeer
    rcases htransition.sameParty_or_offered with hsame | ⟨event, sessionId, -, hrole, hstate, -⟩
    · exact hsame.peerPubkey.trans hpeer
    · rw [hwaiting hrole hstate] at hpeer
      cases hpeer
  · intro hstate
    rw [htransition.terminal (by rw [hstate]; rfl)]
    exact hstate
  · intro hstate
    rw [htransition.terminal (by rw [hstate]; rfl)]
    exact hstate

theorem SessionKept.trans {r s t : PairingSession} (h : SessionKept r s) (h' : SessionKept s t) :
    SessionKept r t where
  peer := fun peer hpeer => h'.peer peer (h.peer peer hpeer)
  completed := fun hstate => h'.completed (h.completed hstate)
  aborted := fun hstate => h'.aborted (h.aborted hstate)

theorem sessionKept_run (lawful : crypto.Lawful) (hstart : w₀.Start crypto qr)
    (hrun : PairingRun crypto w₀ w) (hlater : PairingRun crypto w u) :
    SessionKept w.source u.source ∧ SessionKept w.target u.target := by
  have hrefl (s : PairingSession) : SessionKept s s := ⟨fun _ h => h, fun h => h, fun h => h⟩
  induction hlater with
  | refl => exact ⟨hrefl _, hrefl _⟩
  | @tail v _ hmid hstep ih =>
      have hinv := PairingInvariant.run lawful hstart (hrun.trans hmid)
      cases hstep with
      | source env call _ =>
          exact ⟨ih.1.trans (sessionKept_call lawful (fun _ => hinv.source.waiting) env call), ih.2⟩
      | target env call _ =>
          refine ⟨ih.1, ih.2.trans (sessionKept_call lawful ?_ env call)⟩
          intro hsource
          rw [hinv.target.role] at hsource
          cases hsource

/-- Both users see the same code and both devices compute the same transcript. -/
structure SameTranscript (crypto : PairingCrypto) (s t : PairingSession) : Prop where
  sas : ∃ code, s.sasCode = some code ∧ t.sasCode = some code
  transcript : ∃ hash, s.sourceTranscript crypto = .ok hash ∧ t.targetTranscript crypto = .ok hash

theorem sameTranscript_of_secret (lawful : crypto.Lawful) {s t : PairingSession}
    (hpaired : PairedWith crypto s t) (hs : SasDerived crypto s (t.pubkey crypto))
    (ht : SasDerived crypto t (s.pubkey crypto)) (hid : s.sessionId = t.sessionId)
    (hsecret : s.sessionSecret = t.sessionSecret) : SameTranscript crypto s t := by
  obtain ⟨shared, hshared, hcode, hinput⟩ := hs
  obtain ⟨shared', hshared', hcode', hinput'⟩ := ht
  have hecdh : shared = shared' := by
    have hsymm := lawful.sharedKey_symm s.keys t.keys
    rw [PairingSession.pubkey] at hshared hshared'
    rw [hshared, hshared'] at hsymm
    exact Except.ok.inj hsymm
  subst hecdh
  rw [← hsecret] at hcode' hinput'
  refine ⟨⟨_, hcode, hcode'⟩, ⟨crypto.deriveTranscriptHash s.sessionId (s.pubkey crypto)
    (t.pubkey crypto) (crypto.deriveSas shared s.sessionSecret).2 s.sessionSecret, ?_, ?_⟩⟩
  · simp only [PairingSession.sourceTranscript, hinput, hpaired.source]
  · simp only [PairingSession.targetTranscript, hinput', hpaired.target, hid, hsecret]

/-- The session id tells the two secrets apart. -/
def NoCollision (crypto : PairingCrypto) (s t : PairingSession) : Prop :=
  crypto.deriveSessionId s.sessionSecret = crypto.deriveSessionId t.sessionSecret →
    s.sessionSecret = t.sessionSecret

structure PairingSafe (crypto : PairingCrypto) (qr : QrPayload) (w₀ w u : PairingWorld) : Prop where
  released : ReleasedOnce crypto w₀.source u.sourceLog
  received : ReceivedOnce crypto w₀.target qr u.targetLog
  sourceKept : SessionKept w.source u.source
  targetKept : SessionKept w.target u.target
  agreement : PairedWith crypto u.source u.target → NoCollision crypto u.source u.target →
    SameTranscript crypto u.source u.target

theorem PairingInvariant.agreement (lawful : crypto.Lawful) (hstart : w₀.Start crypto qr)
    (h : PairingInvariant crypto qr w₀ w) (hpaired : PairedWith crypto w.source w.target)
    (hunique : NoCollision crypto w.source w.target) : SameTranscript crypto w.source w.target := by
  obtain ⟨env, keys, secret, relay, hsource⟩ := hstart.source
  obtain ⟨-, -, hqr, htargetId, hderived, -⟩ := hstart.target_facts
  have hid := h.agreed hpaired
  have hsourceId : w.source.sessionId = crypto.deriveSessionId w.source.sessionSecret := by
    rw [h.source.sessionId, h.source.sessionSecret, hsource]
    rfl
  have htargetId' : w.target.sessionId = crypto.deriveSessionId w.target.sessionSecret := by
    rw [h.target.same.sessionId, h.target.same.sessionSecret]
    exact htargetId
  have hpeer : qr.sourcePubkey = w.source.pubkey crypto := by
    have htarget := hpaired.target
    rw [h.target.same.peerPubkey, hqr] at htarget
    exact Option.some.inj htarget
  refine sameTranscript_of_secret lawful hpaired (h.source.sas _ hpaired.source) ?_ hid ?_
  · rw [← hpeer]
    exact hderived.same h.target.same
  · exact hunique (hsourceId.symm.trans (hid.trans htargetId'))

theorem pairing_safe (lawful : crypto.Lawful) (hstart : w₀.Start crypto qr)
    (hrun : PairingRun crypto w₀ w) (hlater : PairingRun crypto w u) :
    PairingSafe crypto qr w₀ w u := by
  have hinv := PairingInvariant.run lawful hstart (hrun.trans hlater)
  obtain ⟨hsource, htarget⟩ := sessionKept_run lawful hstart hrun hlater
  exact ⟨hinv.source.released, hinv.target.received, hsource, htarget, hinv.agreement lawful hstart⟩

end Runs

section Plain

def typeChar : PayloadType → Char
  | .nsec => 'n'
  | .bunker => 'b'
  | .connect => 'c'
  | .custom => 'x'

def reasonChar : AbortReason → Char
  | .sasMismatch => 's'
  | .userDenied => 'd'
  | .timeout => 't'
  | .protocolError => 'p'
  | .unknown => 'u'

def plainWrite : PairingMessage → List Char
  | .offer sessionId version => 'o' :: (List.replicate version 'v' ++ '.' :: sessionId.toList)
  | .sasConfirm hash => 's' :: hash.toList
  | .payload payloadType payload => 'p' :: typeChar payloadType :: payload.toList
  | .complete success => ['c', if success then 't' else 'f']
  | .abort reason => ['a', reasonChar reason]

def plainRead : List Char → Except String PairingMessage
  | 'o' :: rest =>
      .ok (.offer (String.ofList ((rest.dropWhile (· == 'v')).drop 1))
        (rest.takeWhile (· == 'v')).length)
  | 's' :: rest => .ok (.sasConfirm (String.ofList rest))
  | 'p' :: 'n' :: rest => .ok (.payload .nsec (String.ofList rest))
  | 'p' :: 'b' :: rest => .ok (.payload .bunker (String.ofList rest))
  | 'p' :: 'c' :: rest => .ok (.payload .connect (String.ofList rest))
  | 'p' :: 'x' :: rest => .ok (.payload .custom (String.ofList rest))
  | ['c', 't'] => .ok (.complete true)
  | ['c', 'f'] => .ok (.complete false)
  | ['a', 's'] => .ok (.abort .sasMismatch)
  | ['a', 'd'] => .ok (.abort .userDenied)
  | ['a', 't'] => .ok (.abort .timeout)
  | ['a', 'p'] => .ok (.abort .protocolError)
  | ['a', 'u'] => .ok (.abort .unknown)
  | _ => .error "no message"

theorem plainRead_plainWrite (message : PairingMessage) :
    plainRead (plainWrite message) = .ok message := by
  cases message with
  | offer sessionId version =>
      have htake : (List.replicate version 'v' ++ '.' :: sessionId.toList).takeWhile (· == 'v') =
          List.replicate version 'v' := by
        induction version with
        | zero => rfl
        | succ n ih => simp [List.replicate_succ]
      have hdrop : (List.replicate version 'v' ++ '.' :: sessionId.toList).dropWhile (· == 'v') =
          '.' :: sessionId.toList := by
        induction version with
        | zero => rfl
        | succ n ih => simp [List.replicate_succ]
      simp [plainWrite, plainRead, htake, hdrop]
  | sasConfirm hash => simp [plainWrite, plainRead]
  | payload payloadType payload => cases payloadType <;> simp [plainWrite, plainRead, typeChar]
  | complete success => cases success <;> rfl
  | abort reason => cases reason <;> rfl

def bytes32 (bytes : List UInt8) : Bytes32 :=
  ⟨(bytes ++ List.replicate 32 0).take 32, by simp⟩

def padding : List Char :=
  List.replicate 132 '.'

/-- Libraries that hide nothing but meet the laws: a key is its own public key and a sealed
message is a padded one. -/
def plainCrypto : PairingCrypto where
  publicKey := id
  generateSharedKey a b := .ok (bytes32 (List.zipWith (· ^^^ ·) a.1 b.1))
  extract _ ikm := bytes32 ikm
  expand prk _ := prk
  encrypt _ _ _ text := .ok (String.ofList (padding ++ text.toList))
  decrypt _ _ content := .ok (String.ofList (content.toList.drop 132))
  toJson message := .ok (String.ofList (plainWrite message))
  fromJson text := plainRead text.toList
  eventId _ _ _ _ content := bytes32 [UInt8.ofNat content.utf8ByteSize]
  sign key _ _ := .ok key.1
  verify event := if event.sig = event.pubkey.1 then .ok () else .error "signature is invalid"

theorem plainCrypto_lawful : plainCrypto.Lawful where
  sharedKey_symm := by
    intro a b
    have hcomm : List.zipWith (· ^^^ ·) a.1 b.1 = List.zipWith (· ^^^ ·) b.1 a.1 :=
      List.zipWith_comm_of_comm fun x y => UInt8.xor_comm x y
    exact congrArg (fun bytes => Except.ok (bytes32 bytes)) hcomm
  sharedKey_of_decrypt := fun _ _ _ _ _ => ⟨_, rfl⟩
  decrypt_encrypt := by
    intro a b nonce text content h
    obtain rfl := Except.ok.inj h
    have hlength : padding.length = 132 := List.length_replicate
    simp [plainCrypto, String.toList_ofList, hlength]
  fromJson_toJson := by
    intro message text h
    obtain rfl := Except.ok.inj h
    simp only [plainCrypto, String.toList_ofList]
    exact plainRead_plainWrite message

/-- A relay that hands every event on at once: each call gets the event sent last. -/
def relay (crypto : PairingCrypto) (env : Surroundings) :
    List (Role × (Event → PairingCall)) → (w : PairingWorld) → w.sent ≠ [] → PairingWorld
  | [], w, _ => w
  | (.source, call) :: rest, w, h =>
      relay crypto env rest (w.sourceCall crypto env (call (w.sent.getLast h)))
        (List.append_ne_nil_of_left_ne_nil h _)
  | (.target, call) :: rest, w, h =>
      relay crypto env rest (w.targetCall crypto env (call (w.sent.getLast h)))
        (List.append_ne_nil_of_left_ne_nil h _)

theorem relay_run {crypto : PairingCrypto} {env : Surroundings}
    {script : List (Role × (Event → PairingCall))}
    (hscript : ∀ entry ∈ script, ∀ event, (entry.2 event).event? = none ∨
      (entry.2 event).event? = some event) (w : PairingWorld) (h : w.sent ≠ []) :
    PairingRun crypto w (relay crypto env script w h) := by
  induction script generalizing w with
  | nil => exact .refl
  | cons entry rest ih =>
      obtain ⟨role, call⟩ := entry
      have hauthentic : Authentic crypto w (call (w.sent.getLast h)) := by
        intro event hevent text _
        rcases hscript _ List.mem_cons_self (w.sent.getLast h) with hnone | hsome
        · rw [hnone] at hevent
          cases hevent
        · obtain rfl := Option.some.inj (hsome.symm.trans hevent)
          exact ⟨_, List.getLast_mem h, rfl⟩
      have hrest := fun entry hentry => hscript entry (List.mem_cons_of_mem _ hentry)
      cases role with
      | source => exact .head (.source env _ hauthentic) (ih hrest _ _)
      | target => exact .head (.target env _ hauthentic) (ih hrest _ _)

def happyPath : List (Role × (Event → PairingCall)) :=
  [(.source, .handleOffer), (.source, fun _ => .confirmSas), (.target, .handleSasConfirm),
    (.target, fun _ => .confirmTargetSas), (.source, fun _ => .sendPayload .nsec "nsec1test"),
    (.target, .handlePayload), (.target, fun _ => .sendComplete), (.source, .handleComplete)]

theorem pairing_safe_happyPath : ∃ qr w u, w.Start plainCrypto qr ∧
    PairingRun plainCrypto w u ∧ u.sourceLog.length = 4 ∧ u.targetLog.length = 4 ∧
    PairingSafe plainCrypto qr w w u := by
  let env : Surroundings := ⟨0, 1700000000, 0, 0⟩
  let source := PairingSession.newSource plainCrypto env (bytes32 [1]) (bytes32 [7]) "wss://relay"
  obtain ⟨target, offer, htarget⟩ : ∃ target offer, PairingSession.newTarget plainCrypto env
      (bytes32 [2]) source.2 = .ok (target, offer) := ⟨_, _, rfl⟩
  let w : PairingWorld := ⟨source.1, target, [], [], [offer]⟩
  have hstart : w.Start plainCrypto source.2 :=
    ⟨⟨env, _, _, _, rfl⟩, ⟨env, _, offer, htarget, rfl⟩, rfl, rfl⟩
  have hrun : PairingRun plainCrypto w (relay plainCrypto env happyPath w
      (List.cons_ne_nil _ _)) := by
    refine relay_run ?_ w _
    simp [happyPath, PairingCall.event?]
  exact ⟨source.2, w, _, hstart, hrun, rfl, rfl, pairing_safe plainCrypto_lawful hstart .refl hrun⟩

end Plain
end Buzz
