import Buzz.CausalReconcile

/-!
# The desktop keeps the invariant

The desktop writes handoffs for one nonce only: that of the running harness, or
a fresh one while no harness runs. In the second case it has the files to
itself. Every handoff that may still be picked up then carries this nonce before
the harness is spawned, and no executing one does.
-/

namespace Buzz

open EffectProgram

variable {config : Config} {decode : EnvelopeDecoder}

abbrev desktopContract (config : Config) (decode : EnvelopeDecoder) :
    Contract CausalWorld CausalRequest CausalRequest.Reply :=
  (causalDiscipline config decode).contract .desktop

namespace Desktop

section Rules

variable {w : CausalWorld} {bad : String → Unit → CausalWorld → Prop}
variable {request : CausalRequest} {ok : request.Reply → Bool} {error : String}

theorem desktopGuar_refl (w : CausalWorld) : DesktopGuar w w :=
  ⟨HarnessRely.refl w, staysFrozen_refl w⟩

theorem safe_ask (request : CausalRequest) {good : request.Reply → Unit → CausalWorld → Prop}
    (h : ∀ t answer u, CausalValid config.groupId t → DesktopRely w t →
      request.commits t answer u → RecheckReads request answer →
      CausalValid config.groupId u ∧ DesktopGuar t u ∧
        ∀ v, CausalValid config.groupId v → DesktopRely u v → good answer () v) :
    Task.Safe (desktopContract config decode) good bad (ask request) () w := by
  apply Task.safe_perform
  intro t ht hrely answer u hcommit
  exact h t answer u ht hrely hcommit.1 hcommit.2.1

theorem safe_ask_quiet (request : CausalRequest)
    {good : request.Reply → Unit → CausalWorld → Prop} (hquiet : request.isQuiet = true)
    (h : ∀ t answer v, CausalValid config.groupId t → DesktopRely w t →
      request.commits t answer t → RecheckReads request answer → DesktopRely t v →
      good answer () v) :
    Task.Safe (desktopContract config decode) good bad (ask request) () w := by
  apply safe_ask request
  intro t answer u ht hwt hcommit hread
  obtain rfl := CausalRequest.eq_of_isQuiet hquiet hcommit
  exact ⟨ht, desktopGuar_refl u, fun v _ huv => h u answer v ht hwt hcommit hread huv⟩

theorem safe_await (request : CausalRequest) (hquiet : request.isQuiet = true) :
    Task.Safe (desktopContract config decode) (fun _ _ v => DesktopRely w v) bad (ask request) ()
      w :=
  safe_ask_quiet request hquiet fun _ _ _ _ hwt _ _ htv => hwt.trans htv

theorem safe_orFail {good : Unit → Unit → CausalWorld → Prop} (hw : CausalValid config.groupId w)
    (hbad : ∀ v, bad error () v)
    (h : ∀ t answer u, CausalValid config.groupId t → DesktopRely w t →
      request.commits t answer u → CausalValid config.groupId u ∧ DesktopGuar t u ∧
        ∀ v, CausalValid config.groupId v → DesktopRely u v → ok answer = true →
          good () () v) :
    Task.Safe (desktopContract config decode) good bad (orFail request error ok) () w := by
  have hask : Task.Safe (desktopContract config decode)
      (fun answer _ v => ∀ v', CausalValid config.groupId v' → DesktopRely v v' →
        ok answer = true → good () () v') bad (ask request) () w := by
    apply safe_ask request
    intro t answer u ht hwt hcommit _
    obtain ⟨hu, hguar, hafter⟩ := h t answer u ht hwt hcommit
    exact ⟨hu, hguar, fun v _ huv v' hv' hvv' hok => hafter v' hv' (huv.trans hvv') hok⟩
  refine Task.safe_bind hw hask fun answer _ v hv hgood => ?_
  cases hok : ok answer with
  | true => exact Task.safe_ret fun v' hv' hafter => hgood v' hv' hafter hok
  | false => exact Task.safe_fail fun v' _ _ => hbad v'

theorem safe_orFail_quiet (hw : CausalValid config.groupId w)
    (hquiet : request.isQuiet = true) (hbad : ∀ v, bad error () v) :
    Task.Safe (desktopContract config decode) (fun _ _ v => DesktopRely w v) bad
      (orFail request error ok) () w := by
  refine safe_orFail hw hbad fun t answer u ht hwt hcommit => ?_
  obtain rfl := CausalRequest.eq_of_isQuiet hquiet hcommit
  exact ⟨ht, desktopGuar_refl u, fun v _ huv _ => hwt.trans huv⟩

/-- A write that reports success; `updated` is its effect. -/
theorem safe_write {good : Unit → Unit → CausalWorld → Prop} (updated : CausalWorld → CausalWorld)
    (hw : CausalValid config.groupId w) (hbad : ∀ v, bad error () v)
    (hwrites : ∀ t answer u, request.commits t answer u → Writes t (updated t) (ok answer) u)
    (h : ∀ t, CausalValid config.groupId t → DesktopRely w t →
      CausalValid config.groupId (updated t) ∧ DesktopGuar t (updated t) ∧
        ∀ v, CausalValid config.groupId v → DesktopRely (updated t) v → good () () v) :
    Task.Safe (desktopContract config decode) good bad (orFail request error ok) () w := by
  refine safe_orFail hw hbad fun t answer u ht hwt hcommit => ?_
  rcases hwrites t answer u hcommit with rfl | ⟨hfailed, rfl⟩
  · obtain ⟨hu, hguar, hafter⟩ := h t ht hwt
    exact ⟨hu, hguar, fun v hv huv _ => hafter v hv huv⟩
  · refine ⟨ht, desktopGuar_refl u, fun v _ _ hok => ?_⟩
    rw [hfailed] at hok
    cases hok

end Rules

section Reading

variable {w : CausalWorld}

theorem safe_readPending {bad : String → Unit → CausalWorld → Prop} (stem : String)
    (hw : CausalValid config.groupId w) (hbad : ∀ error v, bad error () v) :
    Task.Safe (desktopContract config decode)
      (fun message _ v => ∃ t, CausalValid config.groupId t ∧ DesktopRely w t ∧
        DesktopRely t v ∧ t.pending stem = some message)
      bad (readPending stem) () w := by
  have hask : Task.Safe (desktopContract config decode)
      (fun answer _ v => ∀ message, answer = .found message →
        ∃ t, CausalValid config.groupId t ∧ DesktopRely w t ∧ DesktopRely t v ∧
          t.pending stem = some message)
      bad (ask (.readPending stem)) () w := by
    apply safe_ask_quiet (.readPending stem) rfl
    rintro t answer v ht hwt hcommit - htv message rfl
    exact ⟨t, ht, hwt, htv, hcommit.2⟩
  refine Task.safe_bind hw hask fun answer _ u hu hfound => ?_
  cases answer with
  | missing | failed => exact Task.safe_fail fun v _ _ => hbad _ v
  | found message =>
      obtain ⟨t, ht, hwt, htu, hmessage⟩ := hfound message rfl
      exact Task.safe_ret fun v _ huv => ⟨t, ht, hwt, htu.trans huv, hmessage⟩

/-- The second look at a tombstone does not fail; a tombstone is never invalid. -/
theorem safe_nativeCompletedCausalExists (msgId : String) (recheck : Bool)
    (hw : CausalValid config.groupId w) :
    Task.Safe (desktopContract config decode)
      (fun done _ v => ∃ t, DesktopRely w t ∧ DesktopRely t v ∧
        (done = true ↔ t.completed msgId ≠ none))
      (fun _ _ _ => recheck = false)
      (nativeCompletedCausalExists config.groupId msgId recheck) () w := by
  have hask : Task.Safe (desktopContract config decode)
      (fun answer _ v => (∃ t, CausalValid config.groupId t ∧ DesktopRely w t ∧
        DesktopRely t v ∧ Reads (t.completed msgId) answer) ∧
        RecheckReads (.readCompleted msgId recheck) answer)
      (fun _ _ _ => recheck = false) (ask (.readCompleted msgId recheck)) () w := by
    apply safe_ask_quiet (.readCompleted msgId recheck) rfl
    intro t answer v ht hwt hcommit hread htv
    exact ⟨⟨t, ht, hwt, htv, hcommit.2⟩, hread⟩
  refine Task.safe_bind hw hask fun answer _ u hu hmid => ?_
  obtain ⟨⟨t, ht, hwt, htu, hreads⟩, hread⟩ := hmid
  cases answer with
  | missing =>
      have hnone : t.completed msgId = none := hreads
      exact Task.safe_ret fun v _ huv => ⟨t, hwt, htu.trans huv, by simp [hnone]⟩
  | failed =>
      refine Task.safe_fail fun v _ _ => ?_
      cases recheck with
      | false => rfl
      | true => exact hread.elim
  | found completed =>
      have hsome : t.completed msgId = some completed := hreads
      obtain rfl := ht.tombstone msgId completed hsome
      simp only [ne_eq, not_true_eq_false, decide_false, Bool.or_self, Bool.false_eq_true, if_false]
      exact Task.safe_ret fun v _ huv => ⟨t, hwt, htu.trans huv, by simp [hsome]⟩

theorem safe_ensureNativeCausalMessageNotCompleted (msgId : String) (recheck : Bool)
    (hw : CausalValid config.groupId w) :
    Task.Safe (desktopContract config decode) (fun _ _ v => DesktopRely w v)
      (fun _ _ v => recheck = true → DesktopRely w v ∧ v.completed msgId ≠ none)
      (ensureNativeCausalMessageNotCompleted config.groupId msgId recheck) () w := by
  refine Task.safe_bind hw ((safe_nativeCompletedCausalExists msgId recheck hw).mono
    (fun _ _ _ _ h => h) (fun _ _ _ _ hfirst hsecond => ?_)) fun done _ u hu hmid => ?_
  · rw [hfirst] at hsecond
    cases hsecond
  · obtain ⟨t, hwt, htu, hdone⟩ := hmid
    cases done with
    | false => exact Task.safe_ret fun v _ huv => (hwt.trans htu).trans huv
    | true =>
        exact Task.safe_fail fun v _ huv _ =>
          ⟨(hwt.trans htu).trans huv, huv.completed msgId (htu.completed msgId (hdone.mp rfl))⟩

end Reading

/-- The handoffs are ready for the harness with this nonce. A fresh nonce is that of
a harness which is not yet running. -/
structure Prepared (nonce : String) (fresh : Bool) (w : CausalWorld) : Prop where
  hex : IsLowerHex 32 nonce
  used : nonce ∈ w.nonces
  alive : w.alive = none ∨ fresh = false ∧ w.alive = some nonce
  bound : ∀ stem message, w.pending stem = some message → message.state ≠ .executing →
    message.startNonce = nonce
  foreign : fresh = true → ∀ stem message, w.pending stem = some message →
    message.state = .executing → message.startNonce ≠ nonce

section Persist

variable {nonce : String} {fresh : Bool} {w u : CausalWorld}
variable {stem : String}
variable {message : PendingCausalMessage} {bad : String → Unit → CausalWorld → Prop}

theorem Prepared.rely (h : Prepared nonce fresh w) (hrely : DesktopRely w u) :
    Prepared nonce fresh u where
  hex := h.hex
  used := by rw [hrely.nonces]; exact h.used
  alive := by
    rcases hrely.alive with hsame | hnone
    · rw [hsame]
      exact h.alive
    · exact Or.inl hnone
  bound := by
    intro stem message hmessage hstate
    rcases hrely.records stem message hmessage with hold | hwriter
    · exact h.bound stem message hold hstate
    · rcases h.alive with hnone | ⟨-, halive⟩
      · rw [hnone] at hwriter
        cases hwriter
      · exact Option.some_inj.mp (hwriter.symm.trans halive)
  foreign := by
    intro hfresh
    have hnone : w.alive = none := h.alive.resolve_right fun hawake => by simp [hawake.1] at hfresh
    rw [(hrely.asleep hnone).1]
    exact h.foreign hfresh

theorem Prepared.alive_eq (h : Prepared nonce fresh w) {other : String}
    (halive : w.alive = some other) : other = nonce := by
  rcases h.alive with hnone | ⟨-, hsome⟩
  · rw [hnone] at halive
    cases halive
  · exact Option.some_inj.mp (halive.symm.trans hsome)

/-- Writing or removing a handoff that is not executing keeps the others ready. -/
theorem Prepared.setPending (h : Prepared nonce fresh w) {message : Option PendingCausalMessage}
    (hmessage : ∀ record, message = some record → record.startNonce = nonce ∧
      record.state ≠ .executing) : Prepared nonce fresh (w.setPending stem message) where
  hex := h.hex
  used := h.used
  alive := h.alive
  bound := by
    intro other record hrecord hstate
    by_cases hother : other = stem
    · subst hother
      rw [pending_setPending_self] at hrecord
      exact (hmessage record hrecord).1
    · rw [pending_setPending_of_ne message hother] at hrecord
      exact h.bound other record hrecord hstate
  foreign := by
    intro hfresh other record hrecord hstate
    by_cases hother : other = stem
    · subst hother
      rw [pending_setPending_self] at hrecord
      exact absurd hstate (hmessage record hrecord).2
    · rw [pending_setPending_of_ne message hother] at hrecord
      exact h.foreign hfresh other record hrecord hstate

theorem desktopGuar_createPending
    (hnone : w.pending stem = none) (hstate : message.state ≠ .executing) :
    DesktopGuar w (w.setPending stem (some message)) :=
  ⟨⟨fun _ hrow => hrow, fun _ halive => undisturbed_createPending halive hnone hstate⟩,
    staysFrozen_setPending _ (CausalWorld.not_frozen_of_none hnone)⟩

theorem desktopGuar_removePending (hdone : w.completed stem ≠ none) :
    DesktopGuar w (w.setPending stem none) :=
  ⟨⟨fun _ hrow => hrow, fun _ halive => undisturbed_removePending halive hdone⟩,
    staysFrozen_setPending _ (Or.inl hdone)⟩

theorem validatePendingCausalMessage_of_ok {groupId stem : String} {nonces : List String}
    (h : RecordOk groupId nonces stem message) :
    validatePendingCausalMessage groupId message message.msgId = .ok () := by
  simp [validatePendingCausalMessage, h.version, h.group, h.nonce.1]

theorem safe_validate {nonces : List String} (hok : RecordOk config.groupId nonces stem message) :
    Task.Safe (desktopContract config decode) (fun _ _ v => DesktopRely w v) bad
      (Task.ofExcept (validatePendingCausalMessage config.groupId message message.msgId)) () w := by
  rw [validatePendingCausalMessage_of_ok hok]
  exact Task.safe_ret fun _ _ hwv => hwv

/-- Every handoff that may be adopted carries the nonce already. -/
theorem safe_adoptExistingPendingCausalMessage (stem : String)
    (hw : CausalValid config.groupId w) (h : Prepared nonce fresh w) :
    Task.Safe (desktopContract config decode) (fun _ _ v => Prepared nonce fresh v)
      (fun _ _ _ => True) (adoptExistingPendingCausalMessage config.groupId nonce stem) () w := by
  refine Task.safe_bind hw (safe_readPending stem hw fun _ _ => trivial)
    fun existing _ u hu hmid => ?_
  obtain ⟨t, ht, hwt, htu, hexisting⟩ := hmid
  have hok := ht.record stem existing hexisting
  obtain rfl := hok.msgId
  refine Task.safe_bind hu (safe_validate hok) fun _ _ v hv huv => ?_
  have hprepared : Prepared nonce fresh v := ((h.rely hwt).rely htu).rely huv
  split_ifs with hblocked hsame
  · exact Task.safe_fail fun _ _ _ => trivial
  · exact Task.safe_ret fun x _ hvx => hprepared.rely hvx
  · have hnonce := (h.rely hwt).bound _ existing hexisting
      (not_executing_of_not_blocked hblocked)
    simp [hok.version, hnonce] at hsame

theorem safe_createPending (hstem : IsLowerHex 64 stem) (h : Prepared nonce fresh w) :
    Task.Safe (desktopContract config decode) (fun _ _ v => Prepared nonce fresh v) bad
      (ask (.createPending stem ⟨2, toAsciiLowercase nonce, config.groupId, stem, .pending⟩)) ()
      w := by
  apply safe_ask
  intro t answer u ht hwt hcommit _
  have hprepared := h.rely hwt
  have hcreate : t.pending stem = none →
      u = t.setPending stem (some ⟨2, toAsciiLowercase nonce, config.groupId, stem, .pending⟩) →
      CausalValid config.groupId u ∧ DesktopGuar t u ∧ Prepared nonce fresh u := by
    rintro hnone rfl
    refine ⟨ht.createPending (fun _ halive => hprepared.alive_eq halive) hstem h.hex hprepared.used
      hnone, desktopGuar_createPending hnone (by simp), hprepared.setPending ?_⟩
    rintro record hrecord
    obtain rfl := Option.some_inj.mp hrecord
    exact ⟨h.hex.2, by simp⟩
  have hdone : CausalValid config.groupId u ∧ DesktopGuar t u ∧ Prepared nonce fresh u := by
    cases answer with
    | alreadyExists =>
        obtain ⟨rfl, -⟩ := hcommit
        exact ⟨ht, desktopGuar_refl u, hprepared⟩
    | created => exact hcreate hcommit.1 hcommit.2
    | failed =>
        rcases hcommit with rfl | ⟨hnone, hset⟩
        · exact ⟨ht, desktopGuar_refl u, hprepared⟩
        · exact hcreate hnone hset
  exact ⟨hdone.1, hdone.2.1, fun v _ huv => hdone.2.2.rely huv⟩

/-- After the second look found a tombstone the new handoff is removed. -/
theorem safe_removePending (h : Prepared nonce fresh w) (hdone : w.completed stem ≠ none) :
    Task.Safe (desktopContract config decode) (fun _ _ v => Prepared nonce fresh v) bad
      (ask (.removePending stem)) () w := by
  apply safe_ask
  intro t answer u ht hwt hcommit _
  have hprepared := h.rely hwt
  have hdone' := hwt.completed stem hdone
  rcases hcommit with rfl | ⟨-, rfl⟩
  · exact ⟨ht.removeCompleted hdone', desktopGuar_removePending hdone',
      fun v _ huv => (hprepared.setPending (by simp)).rely huv⟩
  · exact ⟨ht, desktopGuar_refl u, fun v _ huv => hprepared.rely huv⟩

theorem safe_persistNativePendingCausalMessage (msgId : String)
    (hw : CausalValid config.groupId w) (h : Prepared nonce fresh w) :
    Task.Safe (desktopContract config decode) (fun _ _ v => Prepared nonce fresh v)
      (fun _ _ _ => True) (persistNativePendingCausalMessage config.groupId nonce msgId) () w := by
  unfold persistNativePendingCausalMessage
  split_ifs with hnonce hmsgId
  · exact Task.safe_fail fun _ _ _ => trivial
  · exact Task.safe_fail fun _ _ _ => trivial
  · have hstem : IsLowerHex 64 (toAsciiLowercase msgId) :=
      isHexText_messageId (by simpa using hmsgId)
    refine Task.safe_bind hw (safe_orFail_quiet hw rfl fun _ => trivial) fun _ _ u hu hwu => ?_
    refine Task.safe_bind hu ((safe_ensureNativeCausalMessageNotCompleted _ false hu).mono
      (fun _ _ _ _ huv => huv) (fun _ _ _ _ _ => trivial)) fun _ _ v hv huv => ?_
    have hprepared := (h.rely hwu).rely huv
    refine Task.safe_bind hv (safe_await (.pendingExists _) rfl) fun present _ x hx hvx => ?_
    cases present with
    | true => exact safe_adoptExistingPendingCausalMessage _ hx (hprepared.rely hvx)
    | false =>
        refine Task.safe_bind hx (safe_createPending hstem (hprepared.rely hvx))
          fun answer _ y hy hy' => ?_
        cases answer with
        | alreadyExists => exact safe_adoptExistingPendingCausalMessage _ hy hy'
        | failed => exact Task.safe_fail fun _ _ _ => trivial
        | created =>
            have hrecheck : Task.Safe (desktopContract config decode)
                (fun result _ z => Prepared nonce fresh z ∧ ∀ error, result = .error error →
                  z.completed (toAsciiLowercase msgId) ≠ none) (fun _ _ _ => True)
                (Task.result (ensureNativeCausalMessageNotCompleted config.groupId
                  (toAsciiLowercase msgId) true)) () y := by
              apply Task.safe_result hy
              refine (safe_ensureNativeCausalMessageNotCompleted _ true hy).mono
                (fun _ _ z _ hyz => ⟨hy'.rely hyz, by simp⟩) (fun _ _ z _ hfound => ?_)
              exact ⟨hy'.rely (hfound rfl).1, fun _ _ => (hfound rfl).2⟩
            refine Task.safe_bind hy hrecheck fun result _ z hz hmid => ?_
            obtain ⟨hz', hdone⟩ := hmid
            cases result with
            | ok _ => exact Task.safe_ret fun _ _ hafter => hz'.rely hafter
            | error error =>
                exact Task.safe_bind hz (safe_removePending hz' (hdone error rfl))
                  fun _ _ _ _ _ => Task.safe_fail fun _ _ _ => trivial

end Persist

/-- No harness runs and the nonce is that of the next one. -/
structure Fresh (nonce : String) (w : CausalWorld) : Prop where
  hex : IsLowerHex 32 nonce
  used : nonce ∈ w.nonces
  asleep : w.alive = none
  foreign : ∀ stem message, w.pending stem = some message → message.state = .executing →
    message.startNonce ≠ nonce

/-- The handoffs not in `remaining` carry the fresh nonce. -/
structure Rebinding (nonce : String) (remaining : List String) (w : CausalWorld) : Prop
    extends Fresh nonce w where
  bound : ∀ stem message, stem ∉ remaining → w.pending stem = some message →
    message.state ≠ .executing → message.startNonce = nonce

section Rebind

variable {nonce : String} {w u : CausalWorld} {remaining : List String}

theorem still_asleep (hrely : DesktopRely w u) (hasleep : w.alive = none) :
    u.alive = none := by
  rcases hrely.alive with hsame | hnone
  · exact hsame.trans hasleep
  · exact hnone

theorem Fresh.rely (h : Fresh nonce w) (hrely : DesktopRely w u) : Fresh nonce u where
  hex := h.hex
  used := by rw [hrely.nonces]; exact h.used
  asleep := still_asleep hrely h.asleep
  foreign := by rw [(hrely.asleep h.asleep).1]; exact h.foreign

theorem Rebinding.rely (h : Rebinding nonce remaining w) (hrely : DesktopRely w u) :
    Rebinding nonce remaining u where
  toFresh := h.toFresh.rely hrely
  bound := by rw [(hrely.asleep h.asleep).1]; exact h.bound

theorem Rebinding.prepared (h : Rebinding nonce [] w) : Prepared nonce true w where
  hex := h.hex
  used := h.used
  alive := Or.inl h.asleep
  bound := fun stem message => h.bound stem message (by simp)
  foreign := fun _ => h.foreign

/-- A file that is not to be picked up, or no longer there, needs no rebinding. -/
theorem Rebinding.skip {stem : String} (h : Rebinding nonce (stem :: remaining) w)
    (hstem : ∀ message, w.pending stem = some message → message.state ≠ .executing →
      message.startNonce = nonce) : Rebinding nonce remaining w where
  hex := h.hex
  used := h.used
  asleep := h.asleep
  foreign := h.foreign
  bound := by
    intro other message hother hmessage hstate
    by_cases hsame : other = stem
    · rw [hsame] at hmessage
      exact hstem message hmessage hstate
    · exact h.bound other message (by simp [hsame, hother]) hmessage hstate

theorem Rebinding.setPending {stem : String} (h : Rebinding nonce (stem :: remaining) w)
    {message : Option PendingCausalMessage}
    (hmessage : ∀ record, message = some record → record.startNonce = nonce ∧
      record.state ≠ .executing) : Rebinding nonce remaining (w.setPending stem message) where
  hex := h.hex
  used := h.used
  asleep := h.asleep
  foreign := by
    intro other record hrecord hstate
    by_cases hother : other = stem
    · rw [hother, pending_setPending_self] at hrecord
      exact absurd hstate (hmessage record hrecord).2
    · rw [pending_setPending_of_ne message hother] at hrecord
      exact h.foreign other record hrecord hstate
  bound := by
    intro other record hmem hrecord hstate
    by_cases hother : other = stem
    · rw [hother, pending_setPending_self] at hrecord
      exact (hmessage record hrecord).1
    · rw [pending_setPending_of_ne message hother] at hrecord
      exact h.bound other record (by simp [hother, hmem]) hrecord hstate

/-- While no harness runs the desktop's changes disturb nobody. -/
theorem desktopGuar_asleep (hasleep : w.alive = none) (hrows : u.rows = w.rows)
    (hfrozen : StaysFrozen w u) : DesktopGuar w u := by
  refine ⟨⟨fun row hrow => hrows ▸ hrow, fun nonce halive => ?_⟩, hfrozen⟩
  rw [hasleep] at halive
  cases halive

/-- Rebinding a handoff that did not reach its turn keeps the invariant. -/
theorem Rebinding.rebind {stem : String} {message : PendingCausalMessage}
    (hw : CausalValid config.groupId w) (h : Rebinding nonce (stem :: remaining) w)
    (hmessage : w.pending stem = some message) (hopen : w.completed stem = none)
    (hidle : message.state ≠ .executing) :
    CausalValid config.groupId (w.setPending stem (some { message with
        version := 2, startNonce := toAsciiLowercase nonce, state := .pending })) ∧
      DesktopGuar w (w.setPending stem (some { message with
        version := 2, startNonce := toAsciiLowercase nonce, state := .pending })) ∧
      Rebinding nonce remaining (w.setPending stem (some { message with
        version := 2, startNonce := toAsciiLowercase nonce, state := .pending })) := by
  have hok := hw.record stem message hmessage
  have hsilent : w.AllSilent stem := by
    rcases hw.spent stem with hdone | ⟨record, hrecord, hstate⟩ | hsilent
    · exact absurd hopen hdone
    · rw [hmessage, Option.some.injEq] at hrecord
      exact absurd (hrecord ▸ hstate) hidle
    · exact hsilent
  have hfree : ¬w.Frozen stem := by
    rintro (hdone | ⟨record, hrecord, hstate, -⟩)
    · exact hdone hopen
    · rw [hmessage, Option.some.injEq] at hrecord
      exact hidle (hrecord ▸ hstate)
  refine ⟨?_, desktopGuar_asleep h.asleep rfl (staysFrozen_setPending _ (Or.inr hfree)), ?_⟩
  · apply hw.setPending
    · rintro record hrecord
      obtain rfl := Option.some_inj.mp hrecord
      have hlower := h.hex.2
      exact ⟨rfl, hok.group, hok.msgId, hok.stem, hlower.symm ▸ h.hex, hlower.symm ▸ h.used⟩
    · rintro record other - halive
      rw [h.asleep] at halive
      cases halive
    · exact Or.inr (Or.inr hsilent)
    · rintro record hrecord hstate
      obtain rfl := Option.some_inj.mp hrecord
      cases hstate
  · apply h.setPending
    rintro record hrecord
    obtain rfl := Option.some_inj.mp hrecord
    exact ⟨h.hex.2, by simp⟩

theorem safe_rebindFile {stem : String} (hw : CausalValid config.groupId w)
    (h : Rebinding nonce (stem :: remaining) w) :
    Task.Safe (desktopContract config decode) (fun _ _ v => Rebinding nonce remaining v)
      (fun _ _ _ => True) (rebindFile config.groupId nonce stem) () w := by
  refine Task.safe_bind hw (safe_readPending stem hw fun _ _ => trivial)
    fun message _ u hu hmid => ?_
  obtain ⟨t, ht, hwt, htu, hmessage⟩ := hmid
  have hok := ht.record stem message hmessage
  obtain rfl := hok.msgId
  refine Task.safe_bind hu (safe_validate hok) fun _ _ v hv huv => ?_
  -- nobody else touches the file while no harness runs
  have htv := htu.trans huv
  have hrebinding : Rebinding nonce (message.msgId :: remaining) v := (h.rely hwt).rely htv
  have hpending : v.pending message.msgId = some message := by
    rw [(htv.asleep (h.rely hwt).asleep).1]
    exact hmessage
  rw [hok.stem.1]
  refine Task.safe_bind hv ((safe_nativeCompletedCausalExists message.msgId false hv).mono
    (fun _ _ _ _ hpost => hpost) (fun _ _ _ _ _ => trivial)) fun done _ x hx hmid => ?_
  obtain ⟨y, hvy, hyx, hdone⟩ := hmid
  have hvx := hvy.trans hyx
  rw [(hvy.asleep hrebinding.asleep).2] at hdone
  cases done with
  | true =>
      refine safe_write (fun z => z.setPending message.msgId none) hx (fun _ => trivial)
        (fun _ _ _ hcommit => hcommit) fun z hz hxz => ?_
      have hdone' := hxz.completed _ (hvx.completed _ (hdone.mp rfl))
      exact ⟨hz.removeCompleted hdone', desktopGuar_removePending hdone', fun _ _ hafter =>
        (((hrebinding.rely hvx).rely hxz).setPending (by simp)).rely hafter⟩
  | false =>
      have hopen : v.completed message.msgId = none := by
        by_contra hne
        exact Bool.false_ne_true (hdone.mpr hne)
      simp only [Bool.false_eq_true, if_false]
      split_ifs with hreleased
      · have hidle : message.state ≠ .executing := by
          intro hstate
          simp [hstate] at hreleased
        refine safe_write (fun z => z.setPending message.msgId (some { message with
          version := 2, startNonce := toAsciiLowercase nonce, state := .pending })) hx
          (fun _ => trivial) (fun _ _ _ hcommit => hcommit) fun z hz hxz => ?_
        have hvz := hvx.trans hxz
        obtain ⟨hvalid, hguar, hnext⟩ := (hrebinding.rely hvz).rebind hz
          (by rw [(hvz.asleep hrebinding.asleep).1]; exact hpending)
          (by rw [(hvz.asleep hrebinding.asleep).2]; exact hopen) hidle
        exact ⟨hvalid, hguar, fun _ _ hafter => hnext.rely hafter⟩
      · refine Task.safe_ret fun z _ hxz => ?_
        refine (hrebinding.skip fun record hrecord hidle => ?_).rely (hvx.trans hxz)
        rw [hpending, Option.some.injEq] at hrecord
        subst hrecord
        cases hstate : message.state <;> simp [hstate, hok.version] at hreleased hidle

theorem safe_rebindReleasedPendingCausalMessages (hw : CausalValid config.groupId w)
    (h : Fresh nonce w) :
    Task.Safe (desktopContract config decode) (fun _ _ v => Prepared nonce true v)
      (fun _ _ _ => True) (rebindReleasedPendingCausalMessages config.groupId nonce) () w := by
  have hask : Task.Safe (desktopContract config decode)
      (fun answer _ v => ∀ stems, answer = some stems → Rebinding nonce stems v)
      (fun _ _ _ => True) (ask .listPending) () w := by
    apply safe_ask_quiet .listPending rfl
    intro t answer v _ hwt hcommit _ htv stems hstems
    have hlisted : Rebinding nonce stems t :=
      { toFresh := h.rely hwt
        bound := by
          intro stem message hmem hmessage
          have hsome : t.pending stem ≠ none := by simp [hmessage]
          exact absurd (((hcommit.2 stems hstems).2 stem).mpr hsome) hmem }
    exact hlisted.rely htv
  refine Task.safe_bind hw hask fun answer _ u hu hlisted => ?_
  cases answer with
  | none => exact Task.safe_fail fun _ _ _ => trivial
  | some stems =>
      exact (Task.safe_forEach (I := fun remaining _ v => Rebinding nonce remaining v)
        (fun stem remaining _ v hv hinv => safe_rebindFile hv hinv)
        (fun _ v x _ hrely hinv => hinv.rely hrely) stems hu (hlisted stems rfl)).mono
        (fun _ _ v _ hpost => hpost.prepared) (fun _ _ _ _ _ => trivial)

end Rebind

section Launch

variable {nonce : String} {w : CausalWorld}

theorem safe_persistRequested {fresh : Bool} (pendingCausalMsgId : Option String)
    (hw : CausalValid config.groupId w) (h : Prepared nonce fresh w) :
    Task.Safe (desktopContract config decode) (fun _ _ v => Prepared nonce fresh v)
      (fun _ _ _ => True) (persistRequested config.groupId nonce pendingCausalMsgId) () w := by
  cases pendingCausalMsgId with
  | none => exact Task.safe_ret fun v _ hwv => h.rely hwv
  | some msgId => exact safe_persistNativePendingCausalMessage msgId hw h

theorem safe_freshNonce (hasleep : w.alive = none) :
    Task.Safe (desktopContract config decode) (fun nonce _ v => Fresh nonce v)
      (fun _ _ _ => True) (ask .freshNonce) () w := by
  apply safe_ask .freshNonce
  intro t nonce u ht hwt hcommit _
  obtain ⟨hhex, hlower, hnew, rfl⟩ := hcommit
  have hasleep' := still_asleep hwt hasleep
  have hfresh : Fresh nonce { t with nonces := nonce :: t.nonces } :=
    { hex := ⟨hhex, hlower⟩
      used := List.mem_cons_self
      asleep := hasleep'
      foreign := by
        rintro stem message hmessage - rfl
        exact hnew (ht.record stem message hmessage).used }
  refine ⟨?_, desktopGuar_asleep hasleep' rfl fun _ hfrozen => ⟨hfrozen, rfl⟩,
    fun v _ huv => hfresh.rely huv⟩
  exact
    { record := by
        intro stem message hmessage
        have hok := ht.record stem message hmessage
        exact ⟨hok.version, hok.group, hok.msgId, hok.stem, hok.nonce,
          List.mem_cons_of_mem _ hok.used⟩
      tombstone := ht.tombstone
      spent := ht.spent
      once := ht.once
      bound := ht.bound
      alive := fun other halive => by
        obtain ⟨hhex, hused⟩ := ht.alive other halive
        exact ⟨hhex, List.mem_cons_of_mem _ hused⟩
      watermark := ht.watermark
      unique := ht.unique }

/-- The harness is spawned when every handoff it may pick up carries its nonce. -/
theorem safe_spawn (hw : CausalValid config.groupId w) (h : Prepared nonce true w) :
    Task.Safe (desktopContract config decode) (fun _ _ _ => True) (fun _ _ _ => True)
      (orFail (.spawn nonce) "failed to spawn" id) () w := by
  refine safe_orFail hw (fun _ => trivial) fun t answer u ht hwt hcommit => ?_
  have hprepared := h.rely hwt
  have hasleep : t.alive = none := hprepared.alive.resolve_right (by simp)
  obtain rfl : u = if answer then { t with alive := some nonce } else t := hcommit
  cases answer with
  | false => exact ⟨ht, desktopGuar_refl t, fun _ _ _ _ => trivial⟩
  | true =>
      refine ⟨?_, desktopGuar_asleep hasleep rfl ?_, fun _ _ _ _ => trivial⟩
      · exact
          { record := ht.record
            tombstone := ht.tombstone
            spent := ht.spent
            once := ht.once
            bound := by
              intro other halive stem message hmessage hstate
              obtain rfl : nonce = other := Option.some_inj.mp halive
              exact hprepared.bound stem message hmessage hstate
            alive := by
              intro other halive
              obtain rfl : nonce = other := Option.some_inj.mp halive
              exact ⟨h.hex, hprepared.used⟩
            watermark := ht.watermark
            unique := ht.unique }
      · intro msgId hfrozen
        refine ⟨?_, rfl⟩
        rcases hfrozen with hdone | ⟨message, hmessage, hstate, -⟩
        · exact Or.inl hdone
        · refine Or.inr ⟨message, hmessage, hstate, fun halive => ?_⟩
          exact hprepared.foreign rfl msgId message hmessage hstate
            (Option.some_inj.mp halive).symm

theorem safe_startPair (pendingCausalMsgId : Option String) (hw : CausalValid config.groupId w) :
    Task.Safe (desktopContract config decode) (fun _ _ _ => True) (fun _ _ _ => True)
      (startPair config.groupId pendingCausalMsgId) () w := by
  have htracked : Task.Safe (desktopContract config decode)
      (fun answer _ v => ∀ nonce, answer = some nonce → Prepared nonce false v)
      (fun _ _ _ => True) (ask .trackedRuntime) () w := by
    apply safe_ask_quiet .trackedRuntime rfl
    intro t answer v ht _ hcommit _ htv nonce hnonce
    have halive := hcommit.2 nonce hnonce
    obtain ⟨hhex, hused⟩ := ht.alive nonce halive
    have hprepared : Prepared nonce false t :=
      ⟨hhex, hused, Or.inr ⟨rfl, halive⟩, ht.bound nonce halive, by simp⟩
    exact hprepared.rely htv
  refine Task.safe_bind hw htracked fun answer _ u hu htracked => ?_
  cases answer with
  | some nonce =>
      exact (safe_persistRequested pendingCausalMsgId hu (htracked nonce rfl)).mono
        (fun _ _ _ _ _ => trivial) (fun _ _ _ _ _ => trivial)
  | none =>
      have hstopped : Task.Safe (desktopContract config decode) (fun _ _ v => v.alive = none)
          (fun _ _ _ => True)
          (orFail .terminateUntracked "failed to terminate an untracked runtime" id) () u := by
        refine safe_orFail hu (fun _ => trivial) fun t answer x ht _ hcommit => ?_
        obtain ⟨rfl, hnone⟩ := hcommit
        exact ⟨ht, desktopGuar_refl x, fun v _ hxv hok => still_asleep hxv (hnone hok)⟩
      refine Task.safe_bind hu hstopped fun _ _ v hv hasleep => ?_
      refine Task.safe_bind hv (safe_freshNonce hasleep) fun nonce _ x hx hfresh => ?_
      refine Task.safe_bind hx (safe_orFail_quiet hx rfl fun _ => trivial) fun _ _ y hy hxy => ?_
      refine Task.safe_bind hy (safe_rebindReleasedPendingCausalMessages hy (hfresh.rely hxy))
        fun _ _ z hz hprepared => ?_
      exact Task.safe_bind hz (safe_persistRequested pendingCausalMsgId hz hprepared)
        fun _ _ s hs hready => safe_spawn hs hready

end Launch

end Desktop

end Buzz
