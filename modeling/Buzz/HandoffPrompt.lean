import Buzz.AgentSession
import Buzz.GreedyFill

/-!
# The prompt that asks for a handoff summary

The prompt has a fixed head and tail, and the history goes between them, newest
item first into what the window leaves. The section is the newest part of the
history only if nothing older fits behind an item that did not.
-/

namespace Buzz

open GreedyFill (total taken)

def handoffMaxOutputTokens : ℕ := 8192

def handoffOriginalTaskMaxBytes : ℕ := 16 * 1024

def handoffMaxToolNames : ℕ := 20

section Clamp

/-- The longest beginning of the text within the bytes. -/
def floorChars (maxBytes : ℕ) : List Char → List Char
  | [] => []
  | c :: rest => if c.utf8Size ≤ maxBytes then c :: floorChars (maxBytes - c.utf8Size) rest else []

def clampBytes (s : String) (maxBytes : ℕ) : String :=
  if s.utf8ByteSize ≤ maxBytes then s
  else if maxBytes < 4 then String.ofList (floorChars maxBytes s.toList)
  else String.ofList (floorChars (maxBytes - "…".utf8ByteSize) s.toList) ++ "…"

end Clamp

section Snippets

def ToolResultContent.asTextLossy : ToolResultContent → String
  | text s => s
  | image data mimeType =>
      "[image: " ++ mimeType ++ ", " ++ toString data.utf8ByteSize ++ " base64 bytes]"

def ToolResult.text (result : ToolResult) : String :=
  "\n".intercalate (result.content.map ToolResultContent.asTextLossy)

def historySnippet : HistoryItem → String
  | .user s => "[user] " ++ s ++ "\n"
  | .assistant text toolCalls =>
      "[assistant] " ++ text ++ String.join (toolCalls.map fun c => " tool:" ++ c.name) ++ "\n"
  | .toolResult r => (if r.isError then "[tool_err] " else "[tool] ") ++ r.text ++ "\n"

/-- What the loop over the history has collected, oldest snippet first. -/
structure Snippets where
  kept : List String
  bytes : ℕ
  dropped : ℕ
  deriving DecidableEq, Repr

namespace Snippets

def empty : Snippets := ⟨[], 0, 0⟩

/-- A snippet that does not fit is dropped, but the newest one is clamped and kept. -/
def add (budget : ℕ) (snippets : Snippets) (item : HistoryItem) : Snippets :=
  let snippet := historySnippet item
  if budget < snippets.bytes + snippet.utf8ByteSize then
    if snippets.kept.isEmpty then ⟨[clampBytes snippet budget], budget, snippets.dropped + 1⟩
    else { snippets with dropped := snippets.dropped + 1 }
  else ⟨snippet :: snippets.kept, snippets.bytes + snippet.utf8ByteSize, snippets.dropped⟩

def collect (budget : ℕ) (history : List HistoryItem) : Snippets :=
  history.reverse.foldl (add budget) empty

end Snippets
end Snippets

section Prompt

def handoffToolList (tools : List String) : String :=
  let shown := min tools.length handoffMaxToolNames
  if tools.length = 0 then "(none)\n"
  else
    ", ".intercalate (tools.take shown) ++
      (if shown < tools.length then ", … (+" ++ toString (tools.length - shown) ++
        " more)" else "") ++
      "\n"

def handoffTail : String :=
  "\n# Instructions\nProduce a context handoff summary covering: (1) original task, " ++
    "(2) what was accomplished, (3) key decisions, (4) what remains, " ++
    "(5) one concrete next step. Be concise but thorough. Plain text.\n"

def handoffHistoryHeader : String := "\n# Session History (oldest first)\n"

def omittedLine (dropped : ℕ) : String := "(… " ++ toString dropped ++ " older items omitted)\n"

namespace RunState

variable (cfg : AgentConfig) (run : RunState) (tools : List String)

def handoffHead : String :=
  "[Internal handoff #" ++ toString (run.handoffCount + 1) ++ " — context reset]\n\n" ++
    "# Original Task\n" ++
    clampBytes (run.originalTask.getD "(unknown)") handoffOriginalTaskMaxBytes ++
    "\n\n# Available Tools\n" ++ handoffToolList tools

def handoffFixedBytes : ℕ :=
  (run.handoffHead tools).utf8ByteSize + handoffHistoryHeader.utf8ByteSize +
    handoffTail.utf8ByteSize

/-- The bytes that the window leaves for the history. -/
def handoffPromptBudget : ℕ :=
  cfg.maxContextTokens - handoffMaxOutputTokens - run.handoffFixedBytes tools

def handoffSnippets : Snippets :=
  .collect (run.handoffPromptBudget cfg tools) run.history

def buildHandoffPrompt : String :=
  let snippets := run.handoffSnippets cfg tools
  run.handoffHead tools ++ handoffHistoryHeader ++
    (if 0 < snippets.dropped then omittedLine snippets.dropped else "") ++
    String.join snippets.kept ++ handoffTail

/-- The section has the snippets of the newest items, or the newest one clamped if it alone does not
fit, the rest is reported as omitted, and the prompt fits the window. -/
def KeepsNewest : Prop :=
  ∃ older recent, run.history = older ++ recent ∧
    ((run.handoffSnippets cfg tools).kept = recent.map historySnippet ∨
      ∃ newest, recent = [newest] ∧
        run.handoffPromptBudget cfg tools < (historySnippet newest).utf8ByteSize ∧
        (run.handoffSnippets cfg tools).kept =
          [clampBytes (historySnippet newest) (run.handoffPromptBudget cfg tools)]) ∧
    (run.handoffSnippets cfg tools).dropped = older.length ∧
    (run.buildHandoffPrompt cfg tools).utf8ByteSize ≤ cfg.maxContextTokens - handoffMaxOutputTokens

end RunState
end Prompt

def snippetBytes (item : HistoryItem) : ℕ :=
  (historySnippet item).utf8ByteSize

/-- The whole history fits, or a newest part of it fits with the line that reports the rest, and
nothing older fits beside that part. -/
def NewestFits (budget : ℕ) (history : List HistoryItem) : Prop :=
  total snippetBytes history ≤ budget ∨
    ∃ older recent, history = older ++ recent ∧ older ≠ [] ∧ recent ≠ [] ∧
      (omittedLine older.length).utf8ByteSize + total snippetBytes recent ≤ budget ∧
      ∀ item ∈ older, budget < total snippetBytes recent + snippetBytes item

section Collect

variable {budget : ℕ} {item : HistoryItem} {history : List HistoryItem}

theorem snippetBytes_pos (item : HistoryItem) : 0 < snippetBytes item := by
  obtain ⟨body, hbody⟩ : ∃ body, historySnippet item = body ++ "\n" := by
    cases item <;> exact ⟨_, rfl⟩
  have hnewline : "\n".utf8ByteSize = 1 := rfl
  unfold snippetBytes
  rw [hbody, String.utf8ByteSize_append, hnewline]
  omega

theorem utf8ByteSize_join_snippets (items : List HistoryItem) :
    (String.join (items.map historySnippet)).utf8ByteSize = total snippetBytes items := by
  induction items with
  | nil => rfl
  | cons item rest ih =>
      rw [List.map_cons, String.join_cons, String.utf8ByteSize_append, ih, GreedyFill.total_cons]
      rfl

variable (budget) in
/-- Once something is kept, the loop takes what fits and counts the rest. -/
theorem foldl_add (items : List HistoryItem) {snippets : Snippets} (hkept : snippets.kept ≠ []) :
    let fitting := taken snippetBytes budget snippets.bytes items
    (items.foldl (Snippets.add budget) snippets).kept =
        fitting.reverse.map historySnippet ++ snippets.kept ∧
      (items.foldl (Snippets.add budget) snippets).dropped + fitting.length =
        snippets.dropped + items.length := by
  induction items generalizing snippets with
  | nil => exact ⟨rfl, rfl⟩
  | cons item rest ih =>
      simp only [List.foldl_cons, taken]
      by_cases hfits : snippets.bytes + snippetBytes item ≤ budget
      · have hadd : snippets.add budget item =
            ⟨historySnippet item :: snippets.kept, snippets.bytes + snippetBytes item,
              snippets.dropped⟩ := if_neg (Nat.not_lt.mpr hfits)
        have hnext : (snippets.add budget item).kept ≠ [] := by simp [hadd]
        obtain ⟨hrest, hdropped⟩ := ih hnext
        rw [if_pos hfits]
        rw [hadd] at hrest hdropped ⊢
        simp only [List.length_cons] at hdropped ⊢
        refine ⟨?_, by omega⟩
        rw [hrest, List.reverse_cons, List.map_append, List.append_assoc]
        rfl
      · have hadd : snippets.add budget item =
            { snippets with dropped := snippets.dropped + 1 } := by
          have hnot : snippets.kept.isEmpty = false := by simpa using hkept
          simp only [Snippets.add, hnot]
          exact if_pos (Nat.lt_of_not_le hfits)
        have hnext : (snippets.add budget item).kept ≠ [] := by simpa [hadd] using hkept
        obtain ⟨hrest, hdropped⟩ := ih hnext
        rw [if_neg hfits]
        rw [hadd] at hrest hdropped ⊢
        simp only [List.length_cons] at hdropped ⊢
        exact ⟨hrest, by omega⟩

variable (history) in
/-- The newest item fits: what is taken is kept and the rest is counted. -/
theorem collect_of_fits {newest : HistoryItem} (hfits : snippetBytes newest ≤ budget) :
    let snippets := Snippets.collect budget (history ++ [newest])
    let fitting := taken snippetBytes budget 0 (history ++ [newest]).reverse
    snippets.kept = fitting.reverse.map historySnippet ∧
      snippets.dropped + fitting.length = history.length + 1 := by
  have hreverse : (history ++ [newest]).reverse = newest :: history.reverse :=
    List.reverse_concat ..
  have hfirst : Snippets.empty.add budget newest =
      ⟨[historySnippet newest], 0 + snippetBytes newest, 0⟩ := by
    refine if_neg (Nat.not_lt.mpr ?_)
    change 0 + snippetBytes newest ≤ budget
    rwa [Nat.zero_add]
  have htaken : taken snippetBytes budget 0 (newest :: history.reverse) =
      newest :: taken snippetBytes budget (0 + snippetBytes newest) history.reverse := by
    rw [taken, if_pos]
    rwa [Nat.zero_add]
  have hkept : (Snippets.empty.add budget newest).kept ≠ [] := by simp [hfirst]
  obtain ⟨hrest, hdropped⟩ := foldl_add budget history.reverse hkept
  rw [hfirst] at hrest hdropped
  simp only [Snippets.collect, hreverse, List.foldl_cons, htaken, hfirst]
  refine ⟨?_, ?_⟩
  · rw [hrest, List.reverse_cons, List.map_append]
    rfl
  · simp only [List.length_reverse] at hdropped
    rw [List.length_cons]
    omega

variable (history) in
/-- The newest item does not fit: it is clamped, and every item is counted as dropped. -/
theorem collect_of_clamped {newest : HistoryItem} (hlarge : budget < snippetBytes newest) :
    (Snippets.collect budget (history ++ [newest])).kept =
        [clampBytes (historySnippet newest) budget] ∧
      (Snippets.collect budget (history ++ [newest])).dropped = history.length + 1 := by
  have hreverse : (history ++ [newest]).reverse = newest :: history.reverse :=
    List.reverse_concat ..
  have hfirst : Snippets.empty.add budget newest =
      ⟨[clampBytes (historySnippet newest) budget], budget, 1⟩ := by
    refine if_pos ?_
    change budget < 0 + snippetBytes newest
    rwa [Nat.zero_add]
  have hnone : taken snippetBytes budget budget history.reverse = [] := by
    rw [GreedyFill.taken_eq_nil_iff]
    intro item _
    have hpos := snippetBytes_pos item
    omega
  have hkept : (Snippets.empty.add budget newest).kept ≠ [] := by simp [hfirst]
  obtain ⟨hrest, hdropped⟩ := foldl_add budget history.reverse hkept
  rw [hfirst, hnone] at hrest hdropped
  simp only [Snippets.collect, hreverse, List.foldl_cons, hfirst]
  refine ⟨hrest, ?_⟩
  simp only [List.length_nil, List.length_reverse] at hdropped
  omega

end Collect

section Window

variable {cfg : AgentConfig} {run : RunState} {tools : List String}
variable {older recent : List HistoryItem}

/-- The fixed parts of the prompt leave a budget, if only an empty one. -/
def RunState.FixedFits (cfg : AgentConfig) (run : RunState) (tools : List String) : Prop :=
  run.handoffFixedBytes tools ≤ cfg.maxContextTokens - handoffMaxOutputTokens

theorem utf8ByteSize_buildHandoffPrompt
    (hkept : (run.handoffSnippets cfg tools).kept = recent.map historySnippet) :
    (run.buildHandoffPrompt cfg tools).utf8ByteSize = run.handoffFixedBytes tools +
      (if 0 < (run.handoffSnippets cfg tools).dropped then
        (omittedLine (run.handoffSnippets cfg tools).dropped).utf8ByteSize else 0) +
      total snippetBytes recent := by
  have hline (dropped : ℕ) : (if 0 < dropped then omittedLine dropped else "").utf8ByteSize =
      if 0 < dropped then (omittedLine dropped).utf8ByteSize else 0 := by
    split_ifs <;> rfl
  simp only [RunState.buildHandoffPrompt, String.utf8ByteSize_append, hkept,
    utf8ByteSize_join_snippets, hline, RunState.handoffFixedBytes]
  omega

theorem prompt_fits_iff (hfixed : run.FixedFits cfg tools)
    (hkept : (run.handoffSnippets cfg tools).kept = recent.map historySnippet)
    (hdropped : (run.handoffSnippets cfg tools).dropped = older.length) :
    (run.buildHandoffPrompt cfg tools).utf8ByteSize ≤
      cfg.maxContextTokens - handoffMaxOutputTokens ↔
      (if older = [] then 0 else (omittedLine older.length).utf8ByteSize) +
        total snippetBytes recent ≤ run.handoffPromptBudget cfg tools := by
  unfold RunState.FixedFits at hfixed
  rw [utf8ByteSize_buildHandoffPrompt hkept, hdropped]
  unfold RunState.handoffPromptBudget
  cases older with
  | nil =>
      simp only [List.length_nil, Nat.lt_irrefl, if_false, if_true]
      omega
  | cons item rest =>
      simp only [List.length_cons, Nat.succ_pos, if_true, reduceCtorEq, if_false]
      omega

/-- The kept snippets are those of the newest items exactly when these fit and nothing older
does. -/
theorem taken_eq_recent_iff (budget : ℕ) (older recent : List HistoryItem) :
    (taken snippetBytes budget 0 (older ++ recent).reverse).reverse.map historySnippet =
        recent.map historySnippet ↔
      total snippetBytes recent ≤ budget ∧
        ∀ item ∈ older, budget < total snippetBytes recent + snippetBytes item := by
  have htaken : (taken snippetBytes budget 0 (older ++ recent).reverse).map historySnippet =
      taken String.utf8ByteSize budget 0
        (recent.reverse.map historySnippet ++ older.reverse.map historySnippet) := by
    rw [← List.map_append, ← List.reverse_append, GreedyFill.taken_map]
    rfl
  have htotal : total String.utf8ByteSize (recent.reverse.map historySnippet) =
      total snippetBytes recent := by
    rw [GreedyFill.total_map]
    exact GreedyFill.total_reverse recent
  rw [List.map_reverse, htaken, List.reverse_eq_iff, ← List.map_reverse,
    GreedyFill.taken_append_eq_iff (Nat.zero_le budget), htotal, Nat.zero_add]
  refine and_congr_right fun _ => ?_
  rw [List.forall_mem_map]
  simp only [List.mem_reverse]
  rfl

/-- With a newest item that does not fit, every item is reported as omitted although one is
shown. -/
theorem not_keepsNewest_of_large {before : List HistoryItem} {newest : HistoryItem}
    (hhistory : run.history = before ++ [newest])
    (hlarge : run.handoffPromptBudget cfg tools < snippetBytes newest) :
    ¬run.KeepsNewest cfg tools := by
  rintro ⟨older, recent, hsplit, hkept, hdropped, -⟩
  have hcollected : run.handoffSnippets cfg tools =
      Snippets.collect (run.handoffPromptBudget cfg tools) (before ++ [newest]) := by
    rw [RunState.handoffSnippets, hhistory]
  obtain ⟨hclamped, hall⟩ := collect_of_clamped before hlarge
  rw [hcollected, hclamped] at hkept
  rw [hcollected, hall] at hdropped
  have hlength := congrArg List.length (hhistory.symm.trans hsplit)
  rw [List.length_append, List.length_append, List.length_singleton] at hlength
  have hnil : recent = [] := List.eq_nil_of_length_eq_zero (by omega)
  subst hnil
  rcases hkept with hkept | ⟨newest', hone, -⟩
  · cases hkept
  · cases hone

theorem newest_le_budget {budget : ℕ} {before : List HistoryItem} {newest : HistoryItem}
    (h : NewestFits budget (before ++ [newest])) : snippetBytes newest ≤ budget := by
  rcases h with hall | ⟨older, recent, hsplit, -, hsome, hfits, -⟩
  · rw [GreedyFill.total_append, GreedyFill.total_cons] at hall
    omega
  · obtain ⟨front, last, rfl⟩ := (List.eq_nil_or_concat' recent).resolve_left hsome
    rw [← List.append_assoc] at hsplit
    obtain ⟨-, hlast⟩ := List.append_inj' hsplit rfl
    obtain rfl := List.singleton_inj.mp hlast
    rw [GreedyFill.total_append, GreedyFill.total_cons] at hfits
    omega

/-- When the newest item fits, the section is right exactly if the sizes allow it. -/
theorem keepsNewest_iff_of_fits {before : List HistoryItem} {newest : HistoryItem}
    (hfixed : run.FixedFits cfg tools) (hhistory : run.history = before ++ [newest])
    (hfits : snippetBytes newest ≤ run.handoffPromptBudget cfg tools) :
    run.KeepsNewest cfg tools ↔ NewestFits (run.handoffPromptBudget cfg tools) run.history := by
  obtain ⟨hkept, hdropped⟩ := collect_of_fits before hfits
  rw [← hhistory] at hkept hdropped
  change (run.handoffSnippets cfg tools).kept = _ at hkept
  change (run.handoffSnippets cfg tools).dropped + _ = _ at hdropped
  have hlength : run.history.length = before.length + 1 := by
    rw [hhistory, List.length_append, List.length_singleton]
  constructor
  · rintro ⟨older, recent, hsplit, hsection | ⟨newest', rfl, hlarge, -⟩, hcount, hbytes⟩
    · have htotal := hbytes
      rw [prompt_fits_iff hfixed hsection hcount] at htotal
      rw [hkept, hsplit, taken_eq_recent_iff] at hsection
      obtain ⟨hrecent, holder⟩ := hsection
      by_cases hnone : older = []
      · subst hnone
        refine Or.inl ?_
        rw [hsplit, List.nil_append]
        exact hrecent
      · rw [if_neg hnone] at htotal
        refine Or.inr ⟨older, recent, hsplit, hnone, ?_, htotal, holder⟩
        rintro rfl
        have hmem : newest ∈ older := by
          rw [← List.append_nil older, ← hsplit, hhistory]
          exact List.mem_append_right before List.mem_cons_self
        have hnot := holder newest hmem
        rw [GreedyFill.total_nil] at hnot
        omega
    · obtain ⟨-, hlast⟩ := List.append_inj' (hhistory.symm.trans hsplit) rfl
      obtain rfl := List.singleton_inj.mp hlast
      exact absurd hlarge (Nat.not_lt.mpr hfits)
  · have hkeeps {older recent : List HistoryItem} (hsplit : run.history = older ++ recent)
        (hrecent : total snippetBytes recent ≤ run.handoffPromptBudget cfg tools)
        (holder : ∀ item ∈ older,
          run.handoffPromptBudget cfg tools < total snippetBytes recent + snippetBytes item)
        (hline : (if older = [] then 0 else (omittedLine older.length).utf8ByteSize) +
          total snippetBytes recent ≤ run.handoffPromptBudget cfg tools) :
        run.KeepsNewest cfg tools := by
      have hsection : (run.handoffSnippets cfg tools).kept = recent.map historySnippet := by
        rw [hkept, hsplit, taken_eq_recent_iff]
        exact ⟨hrecent, holder⟩
      have hcount : (run.handoffSnippets cfg tools).dropped = older.length := by
        have hsame := congrArg List.length (hkept.symm.trans hsection)
        rw [List.length_map, List.length_map, List.length_reverse] at hsame
        have hsum := congrArg List.length hsplit
        rw [List.length_append] at hsum
        omega
      exact ⟨older, recent, hsplit, Or.inl hsection, hcount,
        (prompt_fits_iff hfixed hsection hcount).mpr hline⟩
    rintro (hall | ⟨older, recent, hsplit, hsome, -, hline, holder⟩)
    · refine hkeeps (List.nil_append run.history).symm hall ?_ ?_
      · intro item hitem
        cases hitem
      · rw [if_pos rfl, Nat.zero_add]
        exact hall
    · refine hkeeps hsplit (by omega) holder ?_
      rw [if_neg hsome]
      exact hline

/-- The prompt keeps the newest history within the window if and only if the sizes of the snippets
allow it. -/
theorem keepsNewest_iff (hfixed : run.FixedFits cfg tools) :
    run.KeepsNewest cfg tools ↔ NewestFits (run.handoffPromptBudget cfg tools) run.history := by
  rcases List.eq_nil_or_concat' run.history with hnil | ⟨before, newest, hhistory⟩
  · have hsection : (run.handoffSnippets cfg tools).kept =
        ([] : List HistoryItem).map historySnippet := by
      rw [RunState.handoffSnippets, hnil]
      rfl
    have hcount : (run.handoffSnippets cfg tools).dropped = ([] : List HistoryItem).length := by
      rw [RunState.handoffSnippets, hnil]
      rfl
    refine iff_of_true ⟨[], [], hnil, Or.inl hsection, hcount, ?_⟩ (Or.inl ?_)
    · rw [prompt_fits_iff hfixed hsection hcount]
      exact Nat.zero_le _
    · rw [hnil]
      exact Nat.zero_le _
  · by_cases hfits : snippetBytes newest ≤ run.handoffPromptBudget cfg tools
    · exact keepsNewest_iff_of_fits hfixed hhistory hfits
    · refine iff_of_false (not_keepsNewest_of_large hhistory (Nat.lt_of_not_le hfits)) ?_
      intro hnewest
      rw [hhistory] at hnewest
      exact hfits (newest_le_budget hnewest)

def listing : HistoryItem :=
  .toolResult ⟨"a", [.text "a long listing of files with their sizes and dates of change"], false⟩

/-- A window that leaves 80 bytes for the history of a run with a short task and no tools. -/
def smallWindow : AgentConfig :=
  { AgentConfig.default with maxContextTokens := 8603, maxOutputTokens := 4096 }

def listedRun (history : List HistoryItem) : RunState :=
  { AgentSession.new.freshRun [] with originalTask := some "hello", history := history }

theorem keepsNewest_iff_listed :
    (listedRun [listing, .user "go on"]).handoffSnippets smallWindow [] =
      ⟨["[user] go on\n"], 13, 1⟩ ∧
    ((listedRun [listing, .user "go on"]).KeepsNewest smallWindow [] ↔
      NewestFits ((listedRun [listing, .user "go on"]).handoffPromptBudget smallWindow [])
        [listing, .user "go on"]) := by
  have hfixed : (listedRun [listing, .user "go on"]).FixedFits smallWindow [] := by
    unfold RunState.FixedFits
    decide +kernel
  exact ⟨by decide +kernel, keepsNewest_iff hfixed⟩

/-- The item in the middle does not fit, but the one before it does: the section has a gap. -/
theorem keepsNewest_gap :
    (listedRun [.user "hello", listing, .user "go on"]).FixedFits smallWindow [] ∧
    (listedRun [.user "hello", listing, .user "go on"]).handoffSnippets smallWindow [] =
      ⟨["[user] hello\n", "[user] go on\n"], 26, 1⟩ ∧
    ¬(listedRun [.user "hello", listing, .user "go on"]).KeepsNewest smallWindow [] := by
  have hsnippets : (listedRun [.user "hello", listing, .user "go on"]).handoffSnippets
    smallWindow [] =
      ⟨["[user] hello\n", "[user] go on\n"], 26, 1⟩ := by decide +kernel
  refine ⟨?_, hsnippets, ?_⟩
  · unfold RunState.FixedFits
    decide +kernel
  · rintro ⟨older, recent, hsplit, hkept, hdropped, -⟩
    rw [hsnippets] at hkept hdropped
    obtain ⟨first, rfl⟩ := List.length_eq_one_iff.mp hdropped.symm
    obtain ⟨-, rfl⟩ := List.cons.inj hsplit
    rcases hkept with hkept | ⟨newest, hone, -⟩
    · revert hkept
      decide +kernel
    · cases hone

end Window
end Buzz
