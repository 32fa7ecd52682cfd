import Buzz.CausalHarness
import Buzz.CursorPaging
import Buzz.ProgramLog

/-!
# A scan of the history is exact

The rows above the watermark are collected from pages of a history that grows
between the requests. The rows that arrive after the first page are newer than all
of its rows, so the result is what stood above the watermark then, in order.
-/

namespace Buzz

open EffectProgram CursorPaging

section Server

abbrev CausalLog : Type := List (Exchange CausalRequest CausalRequest.Reply)

def scopeRows (scope : String) (rows : List HistoryRow) : List HistoryRow :=
  rows.filter fun row => row.scope = scope

/-- The daemon answers from rows of all scopes, whose ids grow, and takes in new rows at any
time. -/
inductive ServedHistory : List HistoryRow → CausalLog → List HistoryRow → Prop where
  | done (rows : List HistoryRow) : ServedHistory rows [] rows
  | append {rows newer last : List HistoryRow} {log : CausalLog} :
      Ascending HistoryRow.id (rows ++ newer) → ServedHistory (rows ++ newer) log last →
      ServedHistory rows log last
  | page {rows last : List HistoryRow} {log : CausalLog} {scope : String} {limit : ℕ}
      {beforeId : Option ℤ} {response : HistoryResponse} :
      IsPage HistoryRow.id (scopeRows scope rows) beforeId response.records response.nextBeforeId →
      ServedHistory rows log last →
      ServedHistory rows (⟨.history scope limit beforeId, .ok response⟩ :: log) last

variable {rows last : List HistoryRow} {log : CausalLog}

theorem ascending_scopeRows (scope : String) (h : Ascending HistoryRow.id rows) :
    Ascending HistoryRow.id (scopeRows scope rows) :=
  h.filter _

theorem scopeRows_append (scope : String) (rows newer : List HistoryRow) :
    scopeRows scope (rows ++ newer) = scopeRows scope rows ++ scopeRows scope newer :=
  List.filter_append ..

/-- In the end there are only more rows. -/
theorem ServedHistory.appended (h : ServedHistory rows log last)
    (hrows : Ascending HistoryRow.id rows) :
    ∃ newer, last = rows ++ newer ∧ Ascending HistoryRow.id last := by
  induction h with
  | done rows => exact ⟨[], (List.append_nil rows).symm, hrows⟩
  | @append rows newer last log hasc _ ih =>
      obtain ⟨later, rfl, hlast⟩ := ih hasc
      exact ⟨newer ++ later, by rw [List.append_assoc], hlast⟩
  | page _ _ ih => exact ih hrows

/-- The rows that were there when the next request was answered. -/
theorem ServedHistory.next {scope : String} {limit : ℕ} {beforeId : Option ℤ}
    {answer : Except X0xError HistoryResponse}
    (h : ServedHistory rows (⟨.history scope limit beforeId, answer⟩ :: log) last)
    (hrows : Ascending HistoryRow.id rows) :
    ∃ newer response, Ascending HistoryRow.id (rows ++ newer) ∧ answer = .ok response ∧
      IsPage HistoryRow.id (scopeRows scope (rows ++ newer)) beforeId response.records
        response.nextBeforeId ∧ ServedHistory (rows ++ newer) log last := by
  generalize hall : (⟨.history scope limit beforeId, answer⟩ :: log : CausalLog) = all at h
  induction h with
  | done rows => cases hall
  | @append rows newer last _ hasc _ ih =>
      obtain ⟨later, response, hlater, hanswer, hpage, hserved⟩ := ih hasc hall
      rw [List.append_assoc] at hlater hpage hserved
      exact ⟨newer ++ later, response, hlater, hanswer, hpage, hserved⟩
  | page hpage hserved _ =>
      cases hall
      exact ⟨[], _, by rwa [List.append_nil], rfl, by rwa [List.append_nil],
        by rwa [List.append_nil]⟩

end Server

section Scan

abbrev ScanProgram : Type :=
  Program CausalRequest CausalRequest.Reply (Except HarnessError (List HistoryRow) × HarnessMemory)

/-- What one page does to the scan. -/
def afterPage (scope : String) (watermark : ℤ) (pages : ℕ) (rows : List HistoryRow)
    (memory : HarnessMemory) : Except X0xError HistoryResponse → ScanProgram
  | .error error => .pure (.error (.x0x error), memory)
  | .ok page =>
      let rows := rows ++ page.records.filter (fun row => watermark < row.id)
      if page.records.any (fun row => row.id ≤ watermark) || page.nextBeforeId.isNone then
        .pure (.ok (rows.insertionSort (fun left right => left.id ≤ right.id)), memory)
      else historyAfterPages scope watermark pages page.nextBeforeId rows memory

theorem historyAfterPages_succ (scope : String) (watermark : ℤ) (pages : ℕ) (beforeId : Option ℤ)
    (rows : List HistoryRow) (memory : HarnessMemory) :
    historyAfterPages scope watermark (pages + 1) beforeId rows memory =
      .call (.history scope historyPageSize beforeId)
        (afterPage scope watermark pages rows memory) := by
  conv_lhs => unfold historyAfterPages
  refine congrArg (Program.call (CausalRequest.history scope historyPageSize beforeId))
    (funext fun answer => ?_)
  cases answer with
  | error error => rfl
  | ok page =>
      change (if (page.records.any fun row => row.id ≤ watermark) || page.nextBeforeId.isNone then
          pure ((rows ++ page.records.filter fun row => watermark < row.id).insertionSort
            fun left right => left.id ≤ right.id)
        else historyAfterPages scope watermark pages page.nextBeforeId
          (rows ++ page.records.filter fun row => watermark < row.id) : HarnessTask _) memory = _
      simp only [afterPage]
      split_ifs <;> rfl

/-- The rows collected so far: those of the listing above the watermark that the cursor is past,
newest first. -/
structure Collected (listing : List HistoryRow) (watermark : ℤ) (beforeId : Option ℤ)
    (rows : List HistoryRow) : Prop where
  mem : ∀ row, row ∈ rows ↔
    row ∈ listing ∧ watermark < row.id ∧ ¬IsBelow HistoryRow.id beforeId row
  descending : rows.Pairwise fun a b => b.id < a.id

variable {listing rows : List HistoryRow} {watermark : ℤ} {beforeId : Option ℤ}
  {response : HistoryResponse}

theorem collected_nil : Collected listing watermark none [] :=
  ⟨by simp [IsBelow], List.Pairwise.nil⟩

/-- The page that a cursor into the listing gives is a page of the listing. -/
theorem mem_records_iff {newer : List HistoryRow}
    (hasc : Ascending HistoryRow.id (listing ++ newer))
    (hcursor : newer = [] ∨ ∃ mark ∈ listing, beforeId = some mark.id)
    (hpage : IsPage HistoryRow.id (listing ++ newer) beforeId response.records
      response.nextBeforeId) (row : HistoryRow) :
    row ∈ response.records ↔ row ∈ listing ∧ IsBelow HistoryRow.id beforeId row ∧
      ∀ c ∈ response.nextBeforeId, c ≤ row.id := by
  rw [hpage.mem_iff hasc]
  rcases hcursor with rfl | ⟨mark, hmark, rfl⟩
  · rw [List.append_nil]
  · constructor
    · rintro ⟨hmem, hbelow, hnext⟩
      exact ⟨(mem_iff_of_appended hasc hmark (hbelow _ rfl).le).mp hmem, hbelow, hnext⟩
    · rintro ⟨hmem, hrest⟩
      exact ⟨List.mem_append_left _ hmem, hrest⟩

/-- The rows of a page are below those that were collected before. -/
theorem Collected.descending_append (h : Collected listing watermark beforeId rows)
    {records : List HistoryRow}
    (hbelow : ∀ row ∈ records, IsBelow HistoryRow.id beforeId row)
    (hdesc : records.Pairwise fun a b => b.id < a.id) :
    (rows ++ records.filter fun row => watermark < row.id).Pairwise fun a b => b.id < a.id := by
  refine List.pairwise_append.mpr ⟨h.descending, hdesc.filter _, ?_⟩
  intro old hold row hrow
  have hrow := hbelow row (List.mem_of_mem_filter hrow)
  have hnot := ((h.mem old).mp hold).2.2
  simp only [IsBelow, not_forall, not_lt] at hnot
  obtain ⟨c, hc, hle⟩ := hnot
  exact (hrow c hc).trans_le hle

/-- One page more, after which the scan goes on below the next cursor. -/
theorem Collected.page {next : ℤ} (h : Collected listing watermark beforeId rows)
    (hrecords : ∀ row, row ∈ response.records ↔ row ∈ listing ∧
      IsBelow HistoryRow.id beforeId row ∧ ∀ c ∈ (some next), c ≤ row.id)
    (hdesc : response.records.Pairwise fun a b => b.id < a.id)
    (hnext : ∀ c ∈ beforeId, next < c) :
    Collected listing watermark (some next)
      (rows ++ response.records.filter fun row => watermark < row.id) := by
  refine ⟨?_, h.descending_append (fun row hrow => ((hrecords row).mp hrow).2.1) hdesc⟩
  intro row
  have hcursor : ¬IsBelow HistoryRow.id (some next) row ↔ next ≤ row.id := by
    simp [IsBelow]
  rw [List.mem_append, h.mem, List.mem_filter, hrecords, decide_eq_true_eq, hcursor]
  constructor
  · rintro (⟨hmem, habove, hpast⟩ | ⟨⟨hmem, -, hle⟩, habove⟩)
    · refine ⟨hmem, habove, ?_⟩
      simp only [IsBelow, not_forall, not_lt] at hpast
      obtain ⟨c, hc, hle⟩ := hpast
      exact (hnext c hc).le.trans hle
    · exact ⟨hmem, habove, hle next rfl⟩
  · rintro ⟨hmem, habove, hle⟩
    by_cases hbelow : IsBelow HistoryRow.id beforeId row
    · refine .inr ⟨⟨hmem, hbelow, ?_⟩, habove⟩
      intro c hc
      rw [← Option.some.inj hc]
      exact hle
    · exact .inl ⟨hmem, habove, hbelow⟩

/-- The last page: the listing has nothing more above the watermark. -/
theorem Collected.finish {next : Option ℤ} (h : Collected listing watermark beforeId rows)
    (hrecords : ∀ row, row ∈ response.records ↔ row ∈ listing ∧
      IsBelow HistoryRow.id beforeId row ∧ ∀ c ∈ next, c ≤ row.id)
    (hdesc : response.records.Pairwise fun a b => b.id < a.id)
    (hstop : next = none ∨ ∃ row ∈ response.records, row.id ≤ watermark) :
    let found := (rows ++ response.records.filter fun row => watermark < row.id).insertionSort
      fun left right => left.id ≤ right.id
    (∀ row, row ∈ found ↔ row ∈ listing ∧ watermark < row.id) ∧ Ascending HistoryRow.id found := by
  intro found
  have hall : (rows ++ response.records.filter fun row => watermark < row.id).Pairwise
      fun a b => b.id < a.id :=
    h.descending_append (fun row hrow => ((hrecords row).mp hrow).2.1) hdesc
  refine ⟨?_, ?_⟩
  · intro row
    rw [List.mem_insertionSort, List.mem_append, h.mem, List.mem_filter, hrecords,
      decide_eq_true_eq]
    constructor
    · rintro (⟨hmem, habove, -⟩ | ⟨⟨hmem, -⟩, habove⟩)
      · exact ⟨hmem, habove⟩
      · exact ⟨hmem, habove⟩
    · rintro ⟨hmem, habove⟩
      by_cases hbelow : IsBelow HistoryRow.id beforeId row
      · refine .inr ⟨⟨hmem, hbelow, ?_⟩, habove⟩
        intro c hc
        rcases hstop with rfl | ⟨old, hold, hle⟩
        · cases hc
        · exact (((hrecords old).mp hold).2.2 c hc).trans (hle.trans habove.le)
      · exact .inl ⟨hmem, habove, hbelow⟩
  · have hdistinct : found.Pairwise fun a b => a.id ≠ b.id :=
      ((List.perm_insertionSort _ _).pairwise_iff fun hne => Ne.symm hne).mpr
        (hall.imp fun hlt => hlt.ne')
    have hsorted : found.Pairwise fun a b => a.id ≤ b.id := List.pairwise_insertionSort _ _
    exact (hsorted.and hdistinct).imp fun h => lt_of_le_of_ne h.1 h.2

variable {scope : String} {pages : ℕ} {memory memory' : HarnessMemory} {log : CausalLog}
  {result : Except HarnessError (List HistoryRow)} {newer : List HistoryRow}

/-- The listing above the watermark, oldest first and each row once. -/
def ExactRows (listing : List HistoryRow) (watermark : ℤ) (found : List HistoryRow) : Prop :=
  (∀ row, row ∈ found ↔ row ∈ listing ∧ watermark < row.id) ∧ Ascending HistoryRow.id found

/-- After a page the scan is done or goes on below a row of the listing. -/
theorem scan_step (hasc : Ascending HistoryRow.id (listing ++ newer))
    (hcursor : newer = [] ∨ ∃ mark ∈ listing, beforeId = some mark.id)
    (hpage : IsPage HistoryRow.id (listing ++ newer) beforeId response.records
      response.nextBeforeId)
    (hcollected : Collected listing watermark beforeId rows)
    (hrun : Answered (afterPage scope watermark pages rows memory (.ok response)) log
      (result, memory')) :
    (∃ found, result = .ok found ∧ ExactRows listing watermark found) ∨
      ∃ mark ∈ listing, ∃ collected, Collected listing watermark (some mark.id) collected ∧
        Answered (historyAfterPages scope watermark pages (some mark.id) collected memory) log
          (result, memory') := by
  have hrecords := mem_records_iff hasc hcursor hpage
  have hdesc := hpage.pairwise hasc
  simp only [afterPage] at hrun
  split at hrun
  · rename_i hstop
    obtain ⟨rfl, -⟩ := Prod.mk.inj (Answered.of_pure hrun).2
    refine .inl ⟨_, rfl, hcollected.finish hrecords hdesc ?_⟩
    rw [Bool.or_eq_true, List.any_eq_true, Option.isNone_iff_eq_none] at hstop
    simpa using hstop.symm
  · rename_i hgoes
    right
    cases hnext : response.nextBeforeId with
    | none => simp [hnext] at hgoes
    | some c =>
        obtain ⟨mark, hlast, rfl⟩ := hpage.cursor c hnext
        obtain ⟨hmark, hbelow, -⟩ := (hrecords mark).mp (List.mem_of_getLast? hlast)
        rw [hnext] at hrecords hrun
        exact ⟨mark, hmark, _, hcollected.page hrecords hdesc hbelow, hrun⟩

/-- The rest of the scan, below a row of the listing. -/
theorem scan_run {served last : List HistoryRow} (hserved : ServedHistory served log last)
    (hasc : Ascending HistoryRow.id served)
    (hrun : Answered (historyAfterPages scope watermark pages beforeId rows memory) log
      (result, memory'))
    (hlisting : ∃ newer, scopeRows scope served = listing ++ newer)
    (hmark : ∃ mark ∈ listing, beforeId = some mark.id)
    (hcollected : Collected listing watermark beforeId rows) :
    result = .error (.x0x .historyPageLimit) ∨
      ∃ found, result = .ok found ∧ ExactRows listing watermark found := by
  induction pages generalizing served log beforeId rows with
  | zero =>
      left
      unfold historyAfterPages at hrun
      exact (Prod.mk.inj (Answered.of_pure hrun).2).1
  | succ pages ih =>
      rw [historyAfterPages_succ] at hrun
      cases hrun with
      | call answer hrest =>
          obtain ⟨later, response, hlater, rfl, hpage, hserved'⟩ := hserved.next hasc
          obtain ⟨newer, hnewer⟩ := hlisting
          have hgrown : scopeRows scope (served ++ later) =
              listing ++ (newer ++ scopeRows scope later) := by
            rw [scopeRows_append, hnewer, List.append_assoc]
          have hscope := ascending_scopeRows scope hlater
          rw [hgrown] at hpage hscope
          rcases scan_step hscope (.inr hmark) hpage hcollected hrest with
            hdone | ⟨mark, hmem, collected, hnext, hgoes⟩
          · exact .inr hdone
          · exact ih hserved' hlater hgoes ⟨_, hgrown⟩ ⟨mark, hmem, rfl⟩ hnext

/-- The id of the newest row on the first page. -/
def firstNewest : CausalLog → Option ℤ
  | ⟨.history _ _ _, .ok response⟩ :: _ => response.records.head?.map HistoryRow.id
  | _ => none

/-- The rows of the first page's time, told by its newest id. -/
theorem mem_first_iff {listing all after records : List HistoryRow} {next : Option ℤ}
    (hasc : Ascending HistoryRow.id listing)
    (hpage : IsPage HistoryRow.id listing none records next) (hall : all = listing ++ after)
    (hallAsc : Ascending HistoryRow.id all) (row : HistoryRow) :
    row ∈ listing ↔
      row ∈ all ∧ ∃ newest ∈ records.head?.map HistoryRow.id, row.id ≤ newest := by
  subst hall
  cases hhead : records.head? with
  | none =>
      have hnil : records = [] := List.head?_eq_none_iff.mp hhead
      rw [hnil] at hpage
      simp [hpage.rows_nil]
  | some newest =>
      have hnewest : newest ∈ listing := by
        have hmem := List.mem_of_mem_head? hhead
        exact ((hpage.mem_iff hasc).mp hmem).1
      simp only [Option.map_some, Option.mem_def, Option.some.injEq, exists_eq_left']
      constructor
      · intro hrow
        exact ⟨List.mem_append_left _ hrow, hpage.le_newest hasc hhead hrow⟩
      · rintro ⟨hrow, hle⟩
        exact (mem_iff_of_appended hallAsc hnewest hle).mp hrow

theorem historyAfter_exact (stableGroupId : String) (watermark : ℤ) (rows last : List HistoryRow)
    (log : CausalLog) (memory memory' : HarnessMemory)
    (result : Except HarnessError (List HistoryRow)) (hrows : Ascending HistoryRow.id rows)
    (hserved : ServedHistory rows log last)
    (hrun : Answered (historyAfter stableGroupId watermark memory) log (result, memory')) :
    result = .error (.x0x .historyPageLimit) ∨
      ∃ found, result = .ok found ∧ Ascending HistoryRow.id found ∧
        ∀ row, row ∈ found ↔ row ∈ scopeRows ("group:" ++ stableGroupId) last ∧
          watermark < row.id ∧ ∃ newest ∈ firstNewest log, row.id ≤ newest := by
  have hpages : maxHistoryPages = 99 + 1 := rfl
  rw [historyAfter, hpages, historyAfterPages_succ] at hrun
  cases hrun with
  | call answer hrest =>
      obtain ⟨later, response, hlater, rfl, hpage, hserved'⟩ := hserved.next hrows
      have hscope := ascending_scopeRows ("group:" ++ stableGroupId) hlater
      obtain ⟨after, rfl, hlast⟩ := hserved'.appended hlater
      have hfirst : ∀ row, row ∈ scopeRows ("group:" ++ stableGroupId) (rows ++ later) ↔
          row ∈ scopeRows ("group:" ++ stableGroupId) (rows ++ later ++ after) ∧
            ∃ newest ∈ response.records.head?.map HistoryRow.id, row.id ≤ newest :=
        mem_first_iff hscope hpage (scopeRows_append _ _ after)
          (ascending_scopeRows _ hlast)
      have hexact : result = .error (.x0x .historyPageLimit) ∨ ∃ found, result = .ok found ∧
          ExactRows (scopeRows ("group:" ++ stableGroupId) (rows ++ later)) watermark found := by
        have hscope' : Ascending HistoryRow.id
            (scopeRows ("group:" ++ stableGroupId) (rows ++ later) ++ []) := by
          rwa [List.append_nil]
        have hpage' : IsPage HistoryRow.id
            (scopeRows ("group:" ++ stableGroupId) (rows ++ later) ++ []) none response.records
            response.nextBeforeId := by
          rwa [List.append_nil]
        rcases scan_step hscope' (.inl rfl) hpage' collected_nil hrest with
          hdone | ⟨mark, hmem, collected, hnext, hgoes⟩
        · exact .inr hdone
        · exact scan_run hserved' hlater hgoes ⟨[], (List.append_nil _).symm⟩ ⟨mark, hmem, rfl⟩
            hnext
      rcases hexact with hlimit | ⟨found, rfl, hmem, hsorted⟩
      · exact .inl hlimit
      · refine .inr ⟨found, rfl, hsorted, fun row => ?_⟩
        rw [hmem, hfirst]
        simp only [firstNewest, and_assoc]
        constructor
        · rintro ⟨hrow, hnewest, habove⟩
          exact ⟨hrow, habove, hnewest⟩
        · rintro ⟨hrow, habove, hnewest⟩
          exact ⟨hrow, hnewest, habove⟩

def loggedRow (id : ℤ) : HistoryRow where
  id := id
  msgId := "m"
  scope := "group:g"
  authorAgent := none
  direction := "Inbound"
  payload := ""
  provenance := ""
  signed := true
  threadRoot := none
  threadParent := none

/-- Two pages of one row each; a row comes in between them. -/
def twoPages : CausalLog :=
  [⟨.history "group:g" 200 none, .ok ⟨[loggedRow 2], some 2⟩⟩,
    ⟨.history "group:g" 200 (some 2), .ok ⟨[loggedRow 1], some 1⟩⟩]

theorem twoPages_served :
    ServedHistory [loggedRow 1, loggedRow 2] twoPages [loggedRow 1, loggedRow 2, loggedRow 3] := by
  refine .page ⟨by decide, by decide, ?_⟩ (@ServedHistory.append _ [loggedRow 3] _ _ (by decide)
    (.page ⟨by decide, by decide, ?_⟩ (.done _)))
  · intro c hc
    exact ⟨loggedRow 2, rfl, Option.some.inj hc⟩
  · intro c hc
    exact ⟨loggedRow 1, rfl, Option.some.inj hc⟩

theorem twoPages_answered (memory : HarnessMemory) :
    Answered (historyAfter "g" 1 memory) twoPages (.ok [loggedRow 2], memory) := by
  have hpages : maxHistoryPages = 98 + 1 + 1 := rfl
  rw [historyAfter, hpages, historyAfterPages_succ]
  refine .call _ ?_
  change Answered (historyAfterPages "group:g" 1 (98 + 1) (some 2) [loggedRow 2] memory) _ _
  rw [historyAfterPages_succ]
  refine .call _ ?_
  exact .done _

theorem twoPages_exact :
    Ascending HistoryRow.id [loggedRow 2] ∧ ∀ row, row ∈ [loggedRow 2] ↔
      row ∈ scopeRows "group:g" [loggedRow 1, loggedRow 2, loggedRow 3] ∧ 1 < row.id ∧
        ∃ newest ∈ firstNewest twoPages, row.id ≤ newest := by
  rcases historyAfter_exact "g" 1 [loggedRow 1, loggedRow 2]
    [loggedRow 1, loggedRow 2, loggedRow 3] twoPages ⟨0, ConversationContext.empty⟩
    ⟨0, ConversationContext.empty⟩ (.ok [loggedRow 2]) (by decide) twoPages_served
    (twoPages_answered _) with hlimit | ⟨found, hfound, hsorted, hmem⟩
  · cases hlimit
  · obtain rfl := Except.ok.inj hfound
    exact ⟨hsorted, hmem⟩

end Scan
end Buzz
