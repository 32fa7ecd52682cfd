import Buzz.CausalHarness

/-!
# Paging through the durable history

The listing is read page by page while new rows arrive. A lookup that answers
returns a row with the requested identifier, and a scan that answers returns
exactly rows above the watermark, with every such row that was there when the
scan began. Both hold under any contract that lets the history only grow.
-/

namespace Buzz

open EffectProgram

/-- The contract answers history requests truthfully and never drops rows. -/
structure ReadsHistory (c : Contract CausalWorld CausalRequest CausalRequest.Reply) : Prop where
  page : ∀ t scope limit beforeId answer u,
    c.commits t (.history scope limit beforeId) answer u → u = t ∧ (c.valid t → c.guar t t) ∧
      ∀ response, answer = .ok response → IsHistoryPage t.rows scope beforeId response
  rows : ∀ w t, c.rely w t → ∀ row ∈ w.rows, row ∈ t.rows

section Paging

variable {c : Contract CausalWorld CausalRequest CausalRequest.Reply} (hreads : ReadsHistory c)
  {w : CausalWorld} (memory : HarnessMemory)

/-- A failed lookup leaves the memory alone. -/
def LookupFailed (c : Contract CausalWorld CausalRequest CausalRequest.Reply)
    (memory : HarnessMemory) (w : CausalWorld) (error : HarnessError) (m : HarnessMemory)
    (v : CausalWorld) : Prop :=
  m = memory ∧ c.rely w v ∧ ∃ reason, error = .x0x reason

theorem LookupFailed.of_rely {c : Contract CausalWorld CausalRequest CausalRequest.Reply}
    {memory m : HarnessMemory} {w u v : CausalWorld} {error : HarnessError}
    (hrely : c.rely w u) (h : LookupFailed c memory u error m v) :
    LookupFailed c memory w error m v :=
  ⟨h.1, c.rely_trans w u v hrely h.2.1, h.2.2⟩

include hreads in
theorem safe_historyPage (hw : c.valid w) (scope : String) (limit : ℕ) (beforeId : Option ℤ) :
    Task.Safe c
      (fun response m v => m = memory ∧ ∃ t, c.rely w t ∧ c.rely t v ∧
        IsHistoryPage t.rows scope beforeId response)
      (LookupFailed c memory w) (historyPage scope limit beforeId) memory w := by
  have hask : Task.Safe c
      (fun answer m v => m = memory ∧ ∃ t, c.rely w t ∧ c.rely t v ∧
        ∀ response, answer = .ok response → IsHistoryPage t.rows scope beforeId response)
      (LookupFailed c memory w) (ask (.history scope limit beforeId)) memory w := by
    apply Task.safe_perform
    intro t ht hrely answer u hcommit
    obtain ⟨rfl, hguar, hpage⟩ := hreads.page t scope limit beforeId answer u hcommit
    exact ⟨ht, hguar ht, fun v _ hlater => ⟨rfl, u, hrely, hlater, hpage⟩⟩
  refine Task.safe_bind hw hask fun answer m v _ hmid => ?_
  obtain ⟨rfl, t, hrely, hlater, hpage⟩ := hmid
  cases answer with
  | ok response =>
      exact Task.safe_ret fun v' _ hafter =>
        ⟨rfl, t, hrely, c.rely_trans _ _ _ hlater hafter, hpage response rfl⟩
  | error reason =>
      exact Task.safe_fail fun v' _ hafter =>
        ⟨rfl, c.rely_trans _ _ _ hrely (c.rely_trans _ _ _ hlater hafter), reason, rfl⟩

include hreads in
theorem safe_historyGetPages (scope msgId : String) (pages : ℕ) (hw : c.valid w)
    (beforeId : Option ℤ) :
    Task.Safe c
      (fun found m v => m = memory ∧ c.rely w v ∧ ∀ row, found = some row →
        row ∈ v.rows ∧ row.msgId = msgId)
      (LookupFailed c memory w) (historyGetPages scope msgId pages beforeId) memory w := by
  induction pages generalizing w beforeId with
  | zero => exact Task.safe_fail fun v _ hrely => ⟨rfl, hrely, _, rfl⟩
  | succ pages ih =>
      refine Task.safe_bind hw (safe_historyPage hreads memory hw scope _ beforeId)
        fun page m u hu hmid => ?_
      obtain ⟨rfl, t, hrely, hlater, hpage⟩ := hmid
      have hwu : c.rely w u := c.rely_trans _ _ _ hrely hlater
      cases hfind : page.records.find? (fun row => row.msgId == msgId) with
      | some row =>
          refine Task.safe_ret fun v _ hafter => ⟨rfl, c.rely_trans _ _ _ hwu hafter, ?_⟩
          intro row' hrow'
          obtain rfl : row = row' := Option.some_inj.mp hrow'
          have hmem : row ∈ t.rows := (hpage.mem row (List.mem_of_find?_eq_some hfind)).1
          refine ⟨hreads.rows _ _ hafter _ (hreads.rows _ _ hlater _ hmem), ?_⟩
          simpa using List.find?_some hfind
      | none =>
          cases hnext : page.nextBeforeId with
          | some next =>
              exact (ih hu (some next)).mono
                (fun found m v _ hpost => ⟨hpost.1, c.rely_trans _ _ _ hwu hpost.2.1, hpost.2.2⟩)
                (fun error m v _ hpost => hpost.of_rely hwu)
          | none =>
              exact Task.safe_ret fun v _ hafter =>
                ⟨rfl, c.rely_trans _ _ _ hwu hafter, fun row hrow => by cases hrow⟩

include hreads in
theorem safe_historyGet (stableGroupId msgId : String) (hw : c.valid w) :
    Task.Safe c
      (fun found m v => m = memory ∧ c.rely w v ∧ ∀ row, found = some row →
        row ∈ v.rows ∧ row.msgId = msgId)
      (LookupFailed c memory w) (historyGet stableGroupId msgId) memory w :=
  safe_historyGetPages hreads memory _ msgId maxHistoryPages hw none

/-- The rows gathered so far hold every row above both the watermark and the cursor. -/
def Gathered (before : CausalWorld) (scope : String) (watermark : ℤ) (beforeId : Option ℤ)
    (rows : List HistoryRow) : Prop :=
  ∀ row ∈ before.rows, row.scope = scope → watermark < row.id → (∃ c ∈ beforeId, c ≤ row.id) →
    row ∈ rows

theorem gathered_page {before t : CausalWorld} {scope : String} {watermark : ℤ}
    {beforeId : Option ℤ} {rows : List HistoryRow} {page : HistoryResponse}
    (hgrow : ∀ row ∈ before.rows, row ∈ t.rows)
    (hgathered : Gathered before scope watermark beforeId rows)
    (hpage : IsHistoryPage t.rows scope beforeId page) {row : HistoryRow}
    (hrow : row ∈ before.rows) (hscope : row.scope = scope) (habove : watermark < row.id)
    (hcursor : ∀ c ∈ page.nextBeforeId, c ≤ row.id) :
    row ∈ rows ++ page.records.filter (fun row => watermark < row.id) := by
  by_cases hearlier : ∃ c ∈ beforeId, c ≤ row.id
  · exact List.mem_append_left _ (hgathered row hrow hscope habove hearlier)
  · apply List.mem_append_right
    rw [List.mem_filter]
    refine ⟨hpage.complete row (hgrow row hrow) hscope ?_ hcursor, by simpa using habove⟩
    intro c hc
    by_contra hle
    exact hearlier ⟨c, hc, not_lt.mp hle⟩

include hreads in
/-- Whatever arrives meanwhile, a scan that answers returns rows above the
watermark and misses none that was there when it began. -/
theorem safe_historyAfterPages (scope : String) (watermark : ℤ) (before : CausalWorld)
    (pages : ℕ) (hw : c.valid w) (hbefore : c.rely before w) (beforeId : Option ℤ)
    (rows : List HistoryRow) (hrows : ∀ row ∈ rows, row ∈ w.rows ∧ watermark < row.id)
    (hgathered : Gathered before scope watermark beforeId rows) :
    Task.Safe c
      (fun result m v => m = memory ∧ c.rely before v ∧
        (∀ row ∈ result, row ∈ v.rows ∧ watermark < row.id) ∧
        ∀ row ∈ before.rows, row.scope = scope → watermark < row.id → row ∈ result)
      (LookupFailed c memory before) (historyAfterPages scope watermark pages beforeId rows)
      memory w := by
  induction pages generalizing w beforeId rows with
  | zero => exact Task.safe_fail fun v _ hrely => ⟨rfl, c.rely_trans _ _ _ hbefore hrely, _, rfl⟩
  | succ pages ih =>
      refine Task.safe_bind hw ((safe_historyPage hreads memory hw scope _ beforeId).mono
        (fun _ _ _ _ h => h) (fun _ _ _ _ h => h.of_rely hbefore)) fun page m u hu hmid => ?_
      obtain ⟨rfl, t, hrely, hlater, hpage⟩ := hmid
      have hbu : c.rely before u := c.rely_trans _ _ _ hbefore (c.rely_trans _ _ _ hrely hlater)
      have hgrow := hreads.rows _ _ (c.rely_trans _ _ _ hbefore hrely)
      have hrows' : ∀ row ∈ rows ++ page.records.filter (fun row => watermark < row.id),
          row ∈ u.rows ∧ watermark < row.id := by
        intro row hrow
        rcases List.mem_append.mp hrow with hold | hnew
        · obtain ⟨hmem, habove⟩ := hrows row hold
          exact ⟨hreads.rows _ _ hlater _ (hreads.rows _ _ hrely _ hmem), habove⟩
        · rw [List.mem_filter] at hnew
          exact ⟨hreads.rows _ _ hlater _ (hpage.mem row hnew.1).1, by simpa using hnew.2⟩
      simp only
      split_ifs with hstop
      · refine Task.safe_ret fun v _ hafter => ⟨rfl, c.rely_trans _ _ _ hbu hafter, ?_, ?_⟩
        · intro row hrow
          rw [List.mem_insertionSort] at hrow
          obtain ⟨hmem, habove⟩ := hrows' row hrow
          exact ⟨hreads.rows _ _ hafter _ hmem, habove⟩
        · intro row hrow hscope habove
          rw [List.mem_insertionSort]
          refine gathered_page hgrow hgathered hpage hrow hscope habove fun cursor hcursor => ?_
          rw [Bool.or_eq_true, List.any_eq_true, Option.isNone_iff_eq_none] at hstop
          rcases hstop with ⟨last, hlast, hle⟩ | hnone
          · have hcle := hpage.cursor_le cursor hcursor last hlast
            have hle' : last.id ≤ watermark := by simpa using hle
            omega
          · rw [hnone] at hcursor
            cases hcursor
      · refine ih hu hbu page.nextBeforeId _ hrows' ?_
        intro row hrow hscope habove ⟨cursor, hcursor, hle⟩
        refine gathered_page hgrow hgathered hpage hrow hscope habove fun cursor' hcursor' => ?_
        rw [Option.mem_unique hcursor' hcursor]
        exact hle

include hreads in
theorem safe_historyAfter (stableGroupId : String) (watermark : ℤ) (hw : c.valid w) :
    Task.Safe c
      (fun result m v => m = memory ∧ c.rely w v ∧
        (∀ row ∈ result, row ∈ v.rows ∧ watermark < row.id) ∧
        ∀ row ∈ w.rows, row.scope = "group:" ++ stableGroupId → watermark < row.id →
          row ∈ result)
      (LookupFailed c memory w) (historyAfter stableGroupId watermark) memory w := by
  apply safe_historyAfterPages hreads memory _ watermark w maxHistoryPages hw (c.rely_refl w)
  · simp
  · rintro row - - - ⟨cursor, hcursor, -⟩
    cases hcursor

end Paging
end Buzz
