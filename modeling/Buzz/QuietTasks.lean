import Buzz.HistoryPaging

/-!
# Tasks that leave the artefacts alone

A request that only reads, or that talks to the daemon or the agent, leaves the
world to the others. A task made of such requests is harmless: it changes
neither the memory of the harness nor an artefact, and it blames no handoff. The
directed turn itself is one, under every contract.
-/

namespace Buzz

open EffectProgram

/-- Requests that only read change nothing and are always allowed. -/
def QuietContract (c : Contract CausalWorld CausalRequest CausalRequest.Reply) : Prop :=
  ∀ t (request : CausalRequest) answer u, request.isQuiet = true →
    c.commits t request answer u → u = t ∧ (c.valid t → c.guar t t)

/-- A task that touches neither the memory nor the artefacts and blames no handoff. -/
def Harmless (c : Contract CausalWorld CausalRequest CausalRequest.Reply) {α : Type}
    (operation : HarnessTask α) : Prop :=
  ∀ memory w, c.valid w →
    Task.Safe c (fun _ m v => m = memory ∧ c.rely w v)
      (fun error m v => m = memory ∧ c.rely w v ∧
        ∀ subject, error ≠ .pendingCausalInvalid subject) operation memory w

section Harmless

variable {c : Contract CausalWorld CausalRequest CausalRequest.Reply} {α β : Type}

theorem harmless_pure (value : α) : Harmless c (pure value : HarnessTask α) :=
  fun _ _ _ => Task.safe_ret fun _ _ hafter => ⟨rfl, hafter⟩

theorem harmless_fail {error : HarnessError} (h : ∀ subject,
    error ≠ .pendingCausalInvalid subject) : Harmless c (Task.fail error : HarnessTask α) :=
  fun _ _ _ => Task.safe_fail fun _ _ hafter => ⟨rfl, hafter, h⟩

theorem harmless_getMemory : Harmless c (Task.getMemory : HarnessTask HarnessMemory) :=
  fun _ _ _ => Task.safe_getMemory fun _ _ hafter => ⟨rfl, hafter⟩

theorem harmless_ask (hc : QuietContract c) (request : CausalRequest)
    (hquiet : request.isQuiet = true) : Harmless c (ask request) := by
  intro memory w hw
  apply Task.safe_perform
  intro t ht hwt answer u hcommit
  obtain ⟨rfl, hguar⟩ := hc t request answer u hquiet hcommit
  exact ⟨ht, hguar ht, fun v _ huv => ⟨rfl, c.rely_trans _ _ _ hwt huv⟩⟩

theorem harmless_bind {t : HarnessTask α} {f : α → HarnessTask β} (ht : Harmless c t)
    (hf : ∀ value, Harmless c (f value)) : Harmless c (t >>= f) := by
  intro memory w hw
  refine Task.safe_bind hw (ht memory w hw) fun value m u hu hmid => ?_
  obtain ⟨rfl, hwu⟩ := hmid
  exact (hf value m u hu).mono
    (fun _ _ v _ hpost => ⟨hpost.1, c.rely_trans _ _ _ hwu hpost.2⟩)
    (fun _ _ v _ hpost => ⟨hpost.1, c.rely_trans _ _ _ hwu hpost.2.1, hpost.2.2⟩)

theorem harmless_orFail (hc : QuietContract c) {request : CausalRequest} {error : HarnessError}
    {ok : request.Reply → Bool} (hquiet : request.isQuiet = true)
    (herror : ∀ subject, error ≠ .pendingCausalInvalid subject) :
    Harmless c (orFail request error ok) := by
  apply harmless_bind (harmless_ask hc request hquiet)
  intro answer
  split_ifs
  · exact harmless_pure ()
  · exact harmless_fail herror

theorem harmless_orX0xError (answer : Except X0xError α) : Harmless c (orX0xError answer) := by
  cases answer with
  | ok value => exact harmless_pure value
  | error reason => exact harmless_fail (by simp)

end Harmless

section Turn

variable {c : Contract CausalWorld CausalRequest CausalRequest.Reply} (hc : QuietContract c)
  (harness : HarnessContext)

include hc in
theorem harmless_promptAttempts (prompt : String) (retries attempts : ℕ) :
    Harmless c (promptAttempts prompt retries attempts) := by
  induction retries generalizing attempts with
  | zero =>
      unfold promptAttempts
      refine harmless_bind (harmless_ask hc _ rfl) fun answer => ?_
      cases answer with
      | error reason => exact harmless_fail (by simp)
      | ok outcome =>
          simp only
          split_ifs
          all_goals first
            | exact harmless_pure _
            | exact harmless_fail (by simp)
  | succ retries ih =>
      unfold promptAttempts
      refine harmless_bind (harmless_ask hc _ rfl) fun answer => ?_
      cases answer with
      | error reason => exact harmless_fail (by simp)
      | ok outcome =>
          simp only
          split_ifs
          all_goals first
            | exact harmless_pure _
            | exact harmless_fail (by simp)
            | exact ih (attempts + 1)

include hc in
theorem harmless_sendReply (row : HistoryRow) (author reply : String) :
    Harmless c (sendReply row author reply) := by
  refine harmless_bind (harmless_ask hc _ rfl) fun stamp => ?_
  refine harmless_bind (harmless_ask hc _ rfl) fun answer => ?_
  cases answer with
  | ok msgId => exact harmless_pure ()
  | error reason => exact harmless_fail (by simp)

theorem harmless_postTurnReply (outcome : AcpTurnOutcome) (isOwner : Bool)
    {send : String → HarnessTask Unit} (hsend : ∀ reply, Harmless c (send reply)) :
    Harmless c (postTurnReply outcome isOwner send) := by
  unfold postTurnReply
  cases replyForAuthor outcome.assistantText isOwner with
  | none => exact harmless_pure false
  | some reply => exact harmless_bind (hsend reply) fun _ => harmless_pure true

include hc in
theorem harmless_handleDirectedMessage (row : HistoryRow) (envelope : ChannelEnvelope) :
    Harmless c (handleDirectedMessage harness row envelope) := by
  unfold handleDirectedMessage promptDirectedMessage
  extract_lets author isOwner
  refine harmless_bind harmless_getMemory fun memory => ?_
  refine harmless_bind (harmless_promptAttempts hc _ _ _) fun outcome => ?_
  have hreply : Harmless c (postTurnReply outcome isOwner (sendReply row author)) :=
    harmless_postTurnReply outcome isOwner (harmless_sendReply hc row author)
  exact harmless_bind hreply fun _ => harmless_pure ()

include hc in
/-- The directed turn is harmless under every contract. -/
theorem harmless_directedTurn (row : HistoryRow) (envelope : ChannelEnvelope) :
    Harmless c (directedTurn harness row envelope) := by
  refine harmless_bind (harmless_orFail hc rfl (by simp)) fun _ => ?_
  refine harmless_bind (harmless_handleDirectedMessage hc harness row envelope) fun _ => ?_
  exact harmless_orFail hc rfl (by simp)

end Turn

end Buzz
