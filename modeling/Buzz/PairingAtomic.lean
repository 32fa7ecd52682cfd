import Buzz.PairingSafety

/-!
# Rejected pairing events

Callers do not know what an event holds before they hand it over, so they try one handler after
another. A handler that rejects an event leaves the session as it was, but for the two rejections
that end the pairing. What a handler does with an event is inverted once (`HandlerOutcome`); the
statements about probing and repetition are about whole runs of a session.
-/

namespace Buzz

inductive PairingHandler where
  | offer
  | sasConfirm
  | payload
  | complete
  | abort
  deriving DecidableEq, Repr

namespace PairingHandler

def call : PairingHandler → Event → PairingCall
  | offer => .handleOffer
  | sasConfirm => .handleSasConfirm
  | payload => .handlePayload
  | complete => .handleComplete
  | abort => .handleAbort

/-- The handler that a message is meant for. -/
def ofMessage : PairingMessage → PairingHandler
  | .offer _ _ => offer
  | .sasConfirm _ => sasConfirm
  | .payload _ _ => payload
  | .complete _ => complete
  | .abort _ => abort

end PairingHandler

/-- The two rejections that end the pairing: a wrong transcript hash and
`complete(success=false)`. -/
def PairingError.closes : PairingError → Bool
  | .transcriptMismatch => true
  | .unexpectedMessage expected got =>
      expected == "complete(success=true)" && got == "complete(success=false)"
  | _ => false

section Errors

variable {crypto : PairingCrypto} {session : PairingSession} {env : Surroundings}

/-- A check that never ends the pairing. -/
def Mild {α : Type} (x : Except PairingError α) : Prop :=
  ∀ error, x = .error error → error.closes = false

theorem mild_ok {α : Type} (a : α) : Mild (.ok a : Except PairingError α) := by
  intro error h
  cases h

theorem mild_error {α : Type} {error : PairingError} (h : error.closes = false) :
    Mild (.error error : Except PairingError α) := by
  intro other heq
  cases heq
  exact h

theorem Mild.bind {α β : Type} {x : Except PairingError α} {f : α → Except PairingError β}
    (hx : Mild x) (hf : ∀ a, Mild (f a)) : Mild (x >>= f) := by
  cases x with
  | error e => exact mild_error (hx e rfl)
  | ok a => exact hf a

theorem mild_mapError {ε α : Type} {x : Except ε α} {f : ε → PairingError}
    (h : ∀ e, (f e).closes = false) : Mild (x.mapError f) := by
  cases x with
  | error e => exact mild_error (h e)
  | ok a => exact mild_ok a

theorem unexpectedMessage_closes {expected : String} (h : expected ≠ "complete(success=true)")
    (got : String) : (PairingError.unexpectedMessage expected got).closes = false := by
  simp [PairingError.closes, h]

theorem mild_expect (state : SessionState) (role : Role) :
    Mild (session.expect env state role) := by
  have hexpired : Mild (session.checkExpired env) := by
    unfold PairingSession.checkExpired
    split_ifs
    · exact mild_error rfl
    · exact mild_ok ()
  have hstate : Mild (session.expectState state) := by
    unfold PairingSession.expectState
    split_ifs
    · exact mild_ok ()
    · apply mild_error
      cases state <;> simp [PairingError.closes, SessionState.debug]
  have hrole : Mild (session.expectRole role) := by
    unfold PairingSession.expectRole
    split_ifs
    · exact mild_ok ()
    · apply mild_error
      cases role <;> simp [PairingError.closes, Role.debug]
  exact hexpired.bind fun _ => hstate.bind fun _ => hrole

theorem mild_validateEventBasics (event : Event) :
    Mild (session.validateEventBasics crypto event) := by
  unfold PairingSession.validateEventBasics
  split
  · exact mild_error rfl
  · split_ifs
    · exact mild_error (by simp [PairingError.closes])
    · have hkind : ("kind " ++ toString pairingKind) ≠ "complete(success=true)" := by decide
      exact mild_error (unexpectedMessage_closes hkind _)
    · exact mild_ok ()
    · exact mild_error rfl

theorem mild_validateEventFromPeer (event : Event) :
    Mild (session.validateEventFromPeer crypto event) := by
  apply (mild_validateEventBasics event).bind
  intro _
  split
  · exact mild_ok ()
  · split_ifs
    · exact mild_ok ()
    · exact mild_error rfl

theorem mild_decryptMessage (event : Event) : Mild (session.decryptMessage crypto event) := by
  unfold PairingSession.decryptMessage
  simp only
  split_ifs
  · split
    · exact mild_error rfl
    · split_ifs
      · exact mild_error (by simp [PairingError.closes])
      · exact mild_mapError fun _ => rfl
  · exact mild_error (by simp [PairingError.closes])

theorem mild_messageFromPeer (state : SessionState) (role : Role) (event : Event) :
    Mild (session.messageFromPeer crypto env state role event) :=
  (mild_expect state role).bind fun _ =>
    (mild_validateEventFromPeer event).bind fun _ => mild_decryptMessage event

theorem unexpected_closes {expected : String} (h : expected ≠ "complete(success=true)")
    (message : PairingMessage) : (unexpected expected message).closes = false :=
  unexpectedMessage_closes h _

theorem mild_acceptOffer (event : Event) : Mild (session.acceptOffer crypto env event) := by
  apply (mild_expect .waiting .source).bind
  intro _
  apply (mild_validateEventBasics event).bind
  intro _
  apply (mild_decryptMessage event).bind
  intro message
  cases message with
  | offer sessionId version =>
      simp only
      split_ifs
      · exact mild_error (by simp [PairingError.closes])
      · exact mild_ok ()
      · exact mild_error rfl
  | sasConfirm hash | payload payloadType payload | complete success | abort reason =>
      exact mild_error (unexpected_closes (by simp) _)

theorem mild_targetTranscript : Mild (session.targetTranscript crypto) := by
  unfold PairingSession.targetTranscript
  split
  · exact mild_error rfl
  · split
    · exact mild_error rfl
    · exact mild_ok _

end Errors

section Outcomes

variable {crypto : PairingCrypto} {session : PairingSession} {env : Surroundings}

/-- A new event for the handler. -/
structure Meant (crypto : PairingCrypto) (session : PairingSession) (handler : PairingHandler)
    (event : Event) : Prop where
  new : event.id ∉ session.processedIds
  message : ∃ message, session.decryptMessage crypto event = .ok message ∧
    PairingHandler.ofMessage message = handler

/-- What a handler can do with an event. -/
inductive HandlerOutcome (crypto : PairingCrypto) (session : PairingSession)
    (handler : PairingHandler) (event : Event) :
    PairingSession × Except PairingError PairingReply → Prop where
  | refused (error : PairingError) : error.closes = false →
      HandlerOutcome crypto session handler event (session, .error error)
  | closed (error : PairingError) : error.closes = true → Meant crypto session handler event →
      HandlerOutcome crypto session handler event ({ session with state := .aborted }, .error error)
  | accepted (next : PairingSession) (reply : PairingReply) : Meant crypto session handler event →
      next.processedIds = event.id :: session.processedIds → next.keys = session.keys →
      HandlerOutcome crypto session handler event (next, .ok reply)

theorem validateEventBasics_new {event : Event}
    (h : session.validateEventBasics crypto event = .ok ()) : event.id ∉ session.processedIds := by
  unfold PairingSession.validateEventBasics at h
  split at h
  · cases h
  · split_ifs at h with hseen
    exact hseen

theorem messageFromPeer_meant {state : SessionState} {role : Role} {event : Event}
    {message : PairingMessage}
    (h : session.messageFromPeer crypto env state role event = .ok message) :
    Meant crypto session (PairingHandler.ofMessage message) event := by
  obtain ⟨_, -, h⟩ := except_bind_ok h
  obtain ⟨_, hvalid, hdecrypted⟩ := except_bind_ok h
  obtain ⟨_, hbasics, -⟩ := except_bind_ok hvalid
  exact ⟨validateEventBasics_new hbasics, message, hdecrypted, rfl⟩

theorem handleOffer_outcome (lawful : crypto.Lawful) (event : Event) :
    HandlerOutcome crypto session .offer event (session.call crypto env (.handleOffer event)) := by
  simp only [PairingSession.call, replied, PairingSession.handleOffer]
  cases haccept : session.acceptOffer crypto env event with
  | error e => exact .refused e (mild_acceptOffer event e haccept)
  | ok _ =>
      obtain ⟨-, -, sessionId, hreceived, -⟩ := acceptOffer_ok haccept
      obtain ⟨text, htext, -⟩ := decryptMessage_ok hreceived.decrypted
      obtain ⟨shared, hshared⟩ := lawful.sharedKey_of_decrypt _ _ _ _ htext
      obtain ⟨_, -, h⟩ := except_bind_ok haccept
      obtain ⟨_, hbasics, -⟩ := except_bind_ok h
      simp only [hshared]
      exact .accepted _ _ ⟨validateEventBasics_new hbasics, _, hreceived.decrypted, rfl⟩ rfl rfl

theorem handleComplete_outcome (event : Event) :
    HandlerOutcome crypto session .complete event
      (session.call crypto env (.handleComplete event)) := by
  simp only [PairingSession.call, replied, PairingSession.handleComplete]
  split
  · rename_i e herror
    exact .refused e (mild_messageFromPeer _ _ event e herror)
  · rename_i hmessage
    exact .accepted _ _ (messageFromPeer_meant hmessage) rfl rfl
  · rename_i hmessage
    exact .closed _ (by simp [PairingError.closes]) (messageFromPeer_meant hmessage)
  · exact .refused _ (unexpected_closes (by simp) _)

/-- The code is there whenever the bytes it is taken from are. -/
def SasTogether (session : PairingSession) : Prop :=
  session.sasInput.isSome = true → session.sasCode.isSome = true

theorem handleSasConfirm_outcome (hsas : SasTogether session) (event : Event) :
    HandlerOutcome crypto session .sasConfirm event
      (session.call crypto env (.handleSasConfirm event)) := by
  simp only [PairingSession.call, replied, PairingSession.handleSasConfirm]
  split
  · rename_i e herror
    exact .refused e (mild_messageFromPeer _ _ event e herror)
  · rename_i hash hmessage
    cases hown : session.targetTranscript crypto with
    | error e => exact .refused e (mild_targetTranscript e hown)
    | ok own =>
        have hinput : session.sasInput.isSome = true := by
          unfold PairingSession.targetTranscript at hown
          cases hsome : session.sasInput with
          | none => simp [hsome] at hown
          | some input => rfl
        obtain ⟨code, hcode⟩ := Option.isSome_iff_exists.mp (hsas hinput)
        simp only
        split_ifs
        · rw [hcode]
          exact .accepted _ _ (messageFromPeer_meant hmessage) rfl rfl
        · exact .closed .transcriptMismatch rfl (messageFromPeer_meant hmessage)
  · exact .refused _ (unexpected_closes (by simp) _)

theorem handlePayload_outcome (event : Event) :
    HandlerOutcome crypto session .payload event
      (session.call crypto env (.handlePayload event)) := by
  simp only [PairingSession.call, replied, PairingSession.handlePayload]
  split
  · rename_i e herror
    exact .refused e (mild_messageFromPeer _ _ event e herror)
  · rename_i hmessage
    exact .accepted _ _ (messageFromPeer_meant hmessage) rfl rfl
  · exact .refused _ (unexpected_closes (by simp) _)

theorem handleAbort_outcome (event : Event) :
    HandlerOutcome crypto session .abort event (session.call crypto env (.handleAbort event)) := by
  simp only [PairingSession.call, replied, PairingSession.handleAbort]
  split_ifs
  · exact .refused _ (by simp [PairingSession.terminalError, PairingError.closes])
  · exact .refused _ rfl
  · split
    · rename_i e herror
      have hmild : Mild (do
          session.validateEventFromPeer crypto event
          session.decryptMessage crypto event) :=
        (mild_validateEventFromPeer event).bind fun _ => mild_decryptMessage event
      exact .refused e (hmild e herror)
    · rename_i reason hmessage
      obtain ⟨_, hvalid, hdecrypted⟩ := except_bind_ok hmessage
      obtain ⟨_, hbasics, -⟩ := except_bind_ok hvalid
      exact .accepted _ _ ⟨validateEventBasics_new hbasics, _, hdecrypted, rfl⟩ rfl rfl
    · exact .refused _ (unexpected_closes (by simp) _)

theorem handler_outcome (lawful : crypto.Lawful) (hsas : SasTogether session)
    (env : Surroundings) (handler : PairingHandler) (event : Event) :
    HandlerOutcome crypto session handler event (session.call crypto env (handler.call event)) := by
  cases handler with
  | offer => exact handleOffer_outcome lawful event
  | sasConfirm => exact handleSasConfirm_outcome hsas event
  | payload => exact handlePayload_outcome event
  | complete => exact handleComplete_outcome event
  | abort => exact handleAbort_outcome event

end Outcomes

section Runs

variable (crypto : PairingCrypto)

/-- A session as one of its two constructors returns it. -/
inductive PairingSession.Opened : PairingSession → Prop where
  | source (env : Surroundings) (keys sessionSecret : Bytes32) (relayUrl : String) :
      Opened (PairingSession.newSource crypto env keys sessionSecret relayUrl).1
  | target {env : Surroundings} {keys : Bytes32} {qr : QrPayload} {session : PairingSession}
      {event : Event} : PairingSession.newTarget crypto env keys qr = .ok (session, event) →
      Opened session

/-- The session after the calls. -/
def PairingSession.after (session : PairingSession) :
    List (Surroundings × PairingCall) → PairingSession
  | [] => session
  | (env, call) :: rest => ((session.call crypto env call).1).after rest

/-- What the calls returned. -/
def PairingSession.log (session : PairingSession) :
    List (Surroundings × PairingCall) → List PairingEntry
  | [] => []
  | (env, call) :: rest =>
      ⟨call, (session.call crypto env call).2⟩ :: ((session.call crypto env call).1).log rest

/-- The id of the event that the entry accepted. -/
def PairingEntry.acceptedId (entry : PairingEntry) : Option Bytes32 :=
  match entry.reply with
  | .ok _ => entry.call.event?.map Event.id
  | .error _ => none

/-- The event handed to each of the handlers in turn. -/
def probes (event : Event) (handlers : List (Surroundings × PairingHandler)) :
    List (Surroundings × PairingCall) :=
  handlers.map fun probe => (probe.1, probe.2.call event)

/-- A rejection leaves the whole session as it was, or ends it. -/
def RejectsUntouched (session : PairingSession) : Prop :=
  ∀ env (handler : PairingHandler) event error,
    (session.call crypto env (handler.call event)).2 = .error error →
      (session.call crypto env (handler.call event)).1 =
        if error.closes then { session with state := .aborted } else session

/-- An event that its handler accepts after some more calls is still accepted there when every
other handler was tried on it before them. -/
def ProbingHarmless (session : PairingSession) : Prop :=
  ∀ handlers rest env (right : PairingHandler) event reply, (∀ probe ∈ handlers, probe.2 ≠ right) →
    ((session.after crypto rest).call crypto env (right.call event)).2 = .ok reply →
      ((session.after crypto (probes event handlers ++ rest)).call crypto env
        (right.call event)).2 =
        .ok reply

end Runs

section Safety

variable {crypto : PairingCrypto} {start session next : PairingSession} {env : Surroundings}

theorem SasTogether.same (h : SasTogether session) (hsame : SameParty session next) :
    SasTogether next := by
  unfold SasTogether
  rw [hsame.sasInput, hsame.sasCode]
  exact h

theorem SasTogether.transition {call : PairingCall} {reply : Except PairingError PairingReply}
    (h : SasTogether session) (htransition : Transition crypto session env call next reply) :
    SasTogether next := by
  cases htransition with
  | refused => exact h
  | offered _ _ _ _ _ _ hsame => exact SasTogether.same (fun _ => rfl) hsame
  | ended _ _ _ hsame | confirmed _ _ _ hsame | released _ _ _ hsame | matched _ _ _ _ _ _ hsame
  | approved _ _ hsame | received _ _ _ _ hsame | finished _ _ _ hsame => exact h.same hsame

theorem PairingSession.Opened.sasTogether (h : start.Opened crypto) : SasTogether start := by
  cases h with
  | source env keys sessionSecret relayUrl =>
      intro hsome
      cases hsome
  | target htarget =>
      unfold PairingSession.newTarget at htarget
      obtain ⟨ecdh, -, h⟩ := except_bind_ok htarget
      obtain ⟨event, -, h⟩ := except_bind_ok h
      cases h
      exact fun _ => rfl

theorem SasTogether.after (lawful : crypto.Lawful) (calls : List (Surroundings × PairingCall)) :
    ∀ {session : PairingSession}, SasTogether session →
      SasTogether (session.after crypto calls) := by
  induction calls with
  | nil => exact fun h => h
  | cons entry rest ih => exact fun h => ih (h.transition (call_transition lawful entry.2))

theorem keys_call (lawful : crypto.Lawful) (call : PairingCall) :
    (session.call crypto env call).1.keys = session.keys := by
  have htransition : Transition crypto session env call (session.call crypto env call).1
      (session.call crypto env call).2 := call_transition lawful call
  obtain hsame | ⟨_, _, -, -, -, -, -, -, hkeys, -⟩ := htransition.sameParty_or_offered
  · exact hsame.keys
  · exact hkeys

theorem keys_after (lawful : crypto.Lawful) (calls : List (Surroundings × PairingCall)) :
    ∀ session : PairingSession, (session.after crypto calls).keys = session.keys := by
  induction calls with
  | nil => exact fun _ => rfl
  | cons entry rest ih => exact fun session => (ih _).trans (keys_call lawful entry.2)

theorem after_append (calls rest : List (Surroundings × PairingCall)) :
    ∀ session : PairingSession,
      session.after crypto (calls ++ rest) = (session.after crypto calls).after crypto rest := by
  induction calls with
  | nil => exact fun _ => rfl
  | cons entry calls ih => exact fun session => ih _

/-- The message of an event depends on the keys of the session alone. -/
theorem decryptMessage_congr {s t : PairingSession} (h : t.keys = s.keys) (event : Event) :
    t.decryptMessage crypto event = s.decryptMessage crypto event := by
  unfold PairingSession.decryptMessage
  rw [h]

theorem rejectsUntouched (lawful : crypto.Lawful) (hsas : SasTogether session) :
    RejectsUntouched crypto session := by
  intro env handler event error herror
  have houtcome := handler_outcome lawful hsas env handler event
  generalize session.call crypto env (handler.call event) = result at houtcome herror
  cases houtcome with
  | refused e hmild =>
      cases herror
      simp [hmild]
  | closed e hcloses =>
      cases herror
      simp [hcloses]
  | accepted => cases herror

/-- The wrong handler does nothing. -/
theorem wrong_handler_untouched (lawful : crypto.Lawful) (hsas : SasTogether session)
    (env : Surroundings) {handler right : PairingHandler} {event : Event} {message : PairingMessage}
    (hmessage : session.decryptMessage crypto event = .ok message)
    (hright : PairingHandler.ofMessage message = right) (hne : handler ≠ right) :
    (session.call crypto env (handler.call event)).1 = session := by
  have hnot : ¬Meant crypto session handler event := by
    rintro ⟨-, other, hother, hmeant⟩
    rw [hmessage] at hother
    cases hother
    exact hne (hmeant.symm.trans hright)
  have houtcome := handler_outcome lawful hsas env handler event
  generalize session.call crypto env (handler.call event) = result at houtcome
  cases houtcome with
  | refused => rfl
  | closed _ _ hmeant | accepted _ _ hmeant => exact absurd hmeant hnot

theorem after_probes (lawful : crypto.Lawful) (hsas : SasTogether session)
    {right : PairingHandler} {event : Event} {message : PairingMessage}
    (hmessage : session.decryptMessage crypto event = .ok message)
    (hright : PairingHandler.ofMessage message = right)
    (handlers : List (Surroundings × PairingHandler)) (hne : ∀ probe ∈ handlers, probe.2 ≠ right) :
    session.after crypto (probes event handlers) = session := by
  induction handlers with
  | nil => rfl
  | cons probe rest ih =>
      have hsame := wrong_handler_untouched lawful hsas probe.1 hmessage hright
        (hne probe List.mem_cons_self)
      have hrest := ih fun other hother => hne other (List.mem_cons_of_mem _ hother)
      calc session.after crypto (probes event (probe :: rest))
          = ((session.call crypto probe.1 (probe.2.call event)).1).after crypto
              (probes event rest) := rfl
        _ = session.after crypto (probes event rest) := by rw [hsame]
        _ = session := hrest

theorem probingHarmless (lawful : crypto.Lawful) (hsas : SasTogether session) :
    ProbingHarmless crypto session := by
  intro handlers rest env right event reply hne haccept
  have hmeant : Meant crypto (session.after crypto rest) right event := by
    have houtcome := handler_outcome lawful (hsas.after lawful rest) env right event
    generalize (session.after crypto rest).call crypto env (right.call event) = result
      at houtcome haccept
    cases houtcome with
    | refused | closed => cases haccept
    | accepted _ _ hmeant => exact hmeant
  obtain ⟨-, message, hmessage, hright⟩ := hmeant
  rw [decryptMessage_congr (keys_after lawful rest session)] at hmessage
  rw [after_append, after_probes lawful hsas hmessage hright handlers hne]
  exact haccept

/-- A call that handles no event accepts none and keeps the processed ids. -/
theorem handler_or_silent (crypto : PairingCrypto) (env : Surroundings) (call : PairingCall) :
    (∃ (handler : PairingHandler) (event : Event), call = handler.call event) ∨
      call.event? = none ∧ ∀ session : PairingSession,
        (session.call crypto env call).1.processedIds = session.processedIds := by
  have hadvance : ∀ {α : Type} (session : PairingSession) (checked : Except PairingError α) state,
      (session.advance checked state).1.processedIds = session.processedIds := by
    intro α session checked state
    cases checked with
    | error e => rfl
    | ok a => rfl
  cases call with
  | handleOffer event => exact Or.inl ⟨.offer, event, rfl⟩
  | handleComplete event => exact Or.inl ⟨.complete, event, rfl⟩
  | handleSasConfirm event => exact Or.inl ⟨.sasConfirm, event, rfl⟩
  | handlePayload event => exact Or.inl ⟨.payload, event, rfl⟩
  | handleAbort event => exact Or.inl ⟨.abort, event, rfl⟩
  | confirmSas | sendPayload payloadType payload | confirmTargetSas | sendComplete =>
      exact Or.inr ⟨rfl, fun session => hadvance session _ _⟩
  | abort reason =>
      refine Or.inr ⟨rfl, fun session => ?_⟩
      simp only [PairingSession.call, replied, PairingSession.abort]
      split_ifs
      · rfl
      · rfl
      · exact hadvance session _ _

/-- An accepted event was new and is recorded; nothing is ever forgotten. -/
theorem acceptedId_call (lawful : crypto.Lawful) (hsas : SasTogether session)
    (env : Surroundings) (call : PairingCall) :
    (∀ id ∈ session.processedIds, id ∈ (session.call crypto env call).1.processedIds) ∧
      ∀ id, (PairingEntry.mk call (session.call crypto env call).2).acceptedId = some id →
        id ∉ session.processedIds ∧ id ∈ (session.call crypto env call).1.processedIds := by
  obtain ⟨handler, event, rfl⟩ | ⟨hnone, hsame⟩ :=
    handler_or_silent crypto env call
  · have hevent : (handler.call event).event? = some event := by cases handler <;> rfl
    have houtcome := handler_outcome lawful hsas env handler event
    generalize session.call crypto env (handler.call event) = result at houtcome
    cases houtcome with
    | refused | closed => exact ⟨fun _ hid => hid, fun _ hid => nomatch hid⟩
    | accepted next reply hmeant hids =>
        refine ⟨fun id hid => ?_, fun id hid => ?_⟩
        · rw [hids]
          exact List.mem_cons_of_mem _ hid
        · have heq : event.id = id := by simpa [PairingEntry.acceptedId, hevent] using hid
          rw [← heq]
          refine ⟨hmeant.new, ?_⟩
          rw [hids]
          exact List.mem_cons_self
  · refine ⟨fun id hid => ?_, fun id hid => ?_⟩
    · rw [hsame]
      exact hid
    · unfold PairingEntry.acceptedId at hid
      split at hid
      · simp [hnone] at hid
      · cases hid

/-- The ids accepted by a run are new to the session it starts from, and none comes twice. -/
theorem acceptedIds_log (lawful : crypto.Lawful) (calls : List (Surroundings × PairingCall)) :
    ∀ {session : PairingSession}, SasTogether session →
      ((session.log crypto calls).filterMap PairingEntry.acceptedId).Nodup ∧
        ∀ id ∈ (session.log crypto calls).filterMap PairingEntry.acceptedId,
          id ∉ session.processedIds := by
  induction calls with
  | nil => exact fun _ => ⟨List.nodup_nil, fun _ hid => nomatch hid⟩
  | cons entry rest ih =>
      obtain ⟨env, call⟩ := entry
      intro session hsas
      obtain ⟨hkept, haccept⟩ := acceptedId_call lawful hsas env call
      have htransition : Transition crypto session env call (session.call crypto env call).1
          (session.call crypto env call).2 := call_transition lawful call
      obtain ⟨hnodup, hnew⟩ := ih (hsas.transition htransition)
      simp only [PairingSession.log, List.filterMap_cons]
      cases hid : (PairingEntry.mk call (session.call crypto env call).2).acceptedId with
      | none => exact ⟨hnodup, fun id hmem hseen => hnew id hmem (hkept id hseen)⟩
      | some id =>
          obtain ⟨hfresh, hrecorded⟩ := haccept id hid
          refine ⟨List.nodup_cons.mpr ⟨fun hmem => hnew id hmem hrecorded, hnodup⟩, ?_⟩
          intro other hmem
          rcases List.mem_cons.mp hmem with rfl | hmem
          · exact hfresh
          · exact fun hseen => hnew other hmem (hkept other hseen)

theorem rejected_event_untouched (lawful : crypto.Lawful) (hopened : start.Opened crypto)
    (calls : List (Surroundings × PairingCall)) :
    RejectsUntouched crypto (start.after crypto calls) ∧
      ProbingHarmless crypto (start.after crypto calls) ∧
        ((start.log crypto calls).filterMap PairingEntry.acceptedId).Nodup := by
  have hsas : SasTogether (start.after crypto calls) := hopened.sasTogether.after lawful calls
  exact ⟨rejectsUntouched lawful hsas, probingHarmless lawful hsas,
    (acceptedIds_log lawful calls hopened.sasTogether).1⟩

/-- A target's offer tried as a payload, then accepted, then delivered again. -/
theorem rejected_event_untouched_redelivery : ∃ start offer,
    PairingSession.Opened plainCrypto start ∧
      let calls := [(⟨0, 0, 0, 0⟩, .handlePayload offer), (⟨0, 0, 0, 0⟩, .handleOffer offer),
        (⟨0, 0, 0, 0⟩, .handleOffer offer)]
      RejectsUntouched plainCrypto (start.after plainCrypto calls) ∧
        ProbingHarmless plainCrypto (start.after plainCrypto calls) ∧
          ((start.log plainCrypto calls).filterMap PairingEntry.acceptedId).Nodup := by
  let env : Surroundings := ⟨0, 1700000000, 0, 0⟩
  let source := PairingSession.newSource plainCrypto env (bytes32 [1]) (bytes32 [7]) "wss://relay"
  obtain ⟨target, offer, -⟩ : ∃ target offer, PairingSession.newTarget plainCrypto env
      (bytes32 [2]) source.2 = .ok (target, offer) := ⟨_, _, rfl⟩
  have hopened : source.1.Opened plainCrypto := .source env _ _ _
  exact ⟨source.1, offer, hopened, rejected_event_untouched plainCrypto_lawful hopened _⟩

end Safety

end Buzz
