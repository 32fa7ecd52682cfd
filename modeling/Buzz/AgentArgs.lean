import Mathlib.Data.List.DropRight
import Buzz.AsciiText

/-!
# Agent arguments on their way to the harness

The desktop hands the arguments of an agent to the harness in one environment
variable, joined with commas. The harness splits the value at every comma, trims
the pieces and drops the empty ones. Arguments are trimmed and never empty when
they leave the desktop, so the list comes back exactly when none of them holds a
comma.
-/

namespace Buzz

def stripSuffix (s suffix : String) : Option String :=
  if suffix.toList.isSuffixOf s.toList then
    some (String.ofList (s.toList.take (s.toList.length - suffix.toList.length)))
  else none

/-- The text after the last separator. -/
def rsplitNext (separator : Char) (s : String) : String :=
  String.ofList ((s.toList.splitOn separator).getLastD [])

/-- `exeSuffix` is the platform's `EXE_SUFFIX`. -/
def normalizeCommandIdentity (exeSuffix command : String) : String :=
  let normalized := String.ofList ((trim command).toList.map fun c => if c = '\\' then '/' else c)
  let basename := rsplitNext '/' normalized
  let lower := String.ofList (basename.toList.map fun c =>
    if c = ' ' ∨ c = '_' then '-' else c.toLower)
  let lower := (stripSuffix lower ".exe").getD lower
  if exeSuffix = "" then lower else (stripSuffix lower exeSuffix).getD lower

def defaultAgentArgs (exeSuffix command : String) : Option (List String) :=
  let identity := normalizeCommandIdentity exeSuffix command
  if identity = "goose" then some ["acp"]
  else if identity ∈ ["codex", "codex-acp", "claude-agent-acp", "claude-code-acp", "claude-code",
      "claudecode", "buzz-agent"] then some []
  else none

def normalizeAgentArgs (exeSuffix command : String) (agentArgs : List String) : List String :=
  let normalized := (agentArgs.map trim).filter (fun arg => arg ≠ "")
  match defaultAgentArgs exeSuffix command with
  | none => normalized
  | some defaultArgs =>
      if normalized = [] then defaultArgs
      else if normalized.length = 1 ∧ eqIgnoreAsciiCase (normalized.headD "") "acp" = true ∧
          defaultArgs = [] then defaultArgs
      else normalized

/-- The value of `BUZZ_ACP_AGENT_ARGS`. -/
def joinArgs (agentArgs : List String) : String :=
  ",".intercalate agentArgs

def splitArgs (raw : String) : List String :=
  (((raw.toList.splitOn ',').map String.ofList).map trim).filter (fun arg => arg ≠ "")

section Trim

/-- What is left starts and ends without a blank, so that a second pass removes nothing. -/
theorem trim_trim (s : String) : trim (trim s) = trim s := by
  have hrest : (trim s).toList = (s.toList.dropWhile isWhitespace).rdropWhile isWhitespace := by
    simp [trim, List.rdropWhile]
  have hhead : (trim s).toList.dropWhile isWhitespace = (trim s).toList := by
    rw [List.dropWhile_eq_self_iff]
    intro hpos
    have hinitial : (trim s).toList <+: s.toList.dropWhile isWhitespace := by
      rw [hrest]
      exact List.rdropWhile_prefix _ _
    have hlong := hpos.trans_le hinitial.length_le
    rw [hinitial.getElem hpos]
    exact List.dropWhile_get_zero_not _ _ hlong
  have hback : ((trim s).toList.dropWhile isWhitespace).rdropWhile isWhitespace =
      (trim s).toList := by
    rw [hhead, hrest, List.rdropWhile_idempotent]
  rw [← String.toList_inj]
  simpa [trim, List.rdropWhile] using hback

/-- Only blanks are trimmed. -/
theorem mem_trim_iff {c : Char} (hc : isWhitespace c = false) (s : String) :
    c ∈ (trim s).toList ↔ c ∈ s.toList := by
  have hdrop (xs : List Char) : c ∈ xs.dropWhile isWhitespace ↔ c ∈ xs := by
    induction xs with
    | nil => simp
    | cons x xs ih =>
        cases hx : isWhitespace x with
        | true =>
            have hne : c ≠ x := by
              rintro rfl
              rw [hc] at hx
              cases hx
            simp [hx, ih, hne]
        | false => simp [hx]
  simp only [trim, String.toList_ofList, List.mem_reverse, hdrop]

end Trim

section RoundTrip

/-- An argument as the desktop keeps it: without blanks around it and not empty. -/
def IsTrimmedArg (arg : String) : Prop :=
  trim arg = arg ∧ arg ≠ ""

theorem isTrimmedArg_of_mem_filter {arg : String} {args : List String}
    (h : arg ∈ (args.map trim).filter (fun arg => arg ≠ "")) : IsTrimmedArg arg := by
  obtain ⟨hmem, hne⟩ := List.mem_filter.mp h
  obtain ⟨raw, -, rfl⟩ := List.mem_map.mp hmem
  exact ⟨trim_trim raw, by simpa using hne⟩

theorem mem_defaultAgentArgs {exeSuffix command arg : String} {args : List String}
    (h : defaultAgentArgs exeSuffix command = some args) (harg : arg ∈ args) : arg = "acp" := by
  simp only [defaultAgentArgs] at h
  split_ifs at h
  · obtain rfl := Option.some_inj.mp h
    exact List.mem_singleton.mp harg
  · obtain rfl := Option.some_inj.mp h
    cases harg

/-- Normalising keeps the trimmed arguments or takes the defaults of the command. -/
theorem normalizeAgentArgs_cases (exeSuffix command : String) (agentArgs : List String) :
    normalizeAgentArgs exeSuffix command agentArgs =
        (agentArgs.map trim).filter (fun arg => arg ≠ "") ∨
      (∀ arg ∈ normalizeAgentArgs exeSuffix command agentArgs, arg = "acp") ∧
        ∀ arg ∈ (agentArgs.map trim).filter (fun arg => arg ≠ ""),
          eqIgnoreAsciiCase arg "acp" = true := by
  unfold normalizeAgentArgs
  extract_lets normalized
  cases hdefault : defaultAgentArgs exeSuffix command with
  | none => exact Or.inl rfl
  | some defaultArgs =>
      simp only
      split_ifs with hempty hacp
      · exact Or.inr ⟨fun arg harg => mem_defaultAgentArgs hdefault harg, by
          rw [show (agentArgs.map trim).filter (fun arg => arg ≠ "") = [] from hempty]
          simp⟩
      · obtain ⟨hlength, hname, -⟩ := hacp
        obtain ⟨only, honly⟩ := List.length_eq_one_iff.mp hlength
        refine Or.inr ⟨fun arg harg => mem_defaultAgentArgs hdefault harg, fun arg harg => ?_⟩
        have harg' : arg ∈ normalized := harg
        rw [honly] at harg' hname
        rw [List.mem_singleton.mp harg']
        exact hname
      · exact Or.inl rfl

theorem isTrimmedArg_of_mem_normalizeAgentArgs {exeSuffix command arg : String}
    {agentArgs : List String} (h : arg ∈ normalizeAgentArgs exeSuffix command agentArgs) :
    IsTrimmedArg arg := by
  rcases normalizeAgentArgs_cases exeSuffix command agentArgs with hsame | ⟨hdefault, -⟩
  · rw [hsame] at h
    exact isTrimmedArg_of_mem_filter h
  · rw [hdefault arg h]
    exact ⟨rfl, by decide⟩

theorem not_mem_of_mem_splitOn {α : Type} [DecidableEq α] {separator : α} {xs piece : List α}
    (h : piece ∈ xs.splitOn separator) : separator ∉ piece := by
  induction xs generalizing piece with
  | nil =>
      rw [List.splitOn_nil, List.mem_singleton] at h
      simp [h]
  | cons x xs ih =>
      rw [List.splitOn_cons_eq_if_modifyHead] at h
      split_ifs at h with hx
      · rcases List.mem_cons.mp h with rfl | htail
        · simp
        · exact ih htail
      · obtain ⟨first, rest, hsplit⟩ := List.exists_cons_of_ne_nil
          (List.splitOn_ne_nil separator xs)
        rw [hsplit, List.modifyHead_cons, List.mem_cons] at h
        rcases h with rfl | hrest
        · have hfirst := ih (hsplit ▸ List.mem_cons_self)
          have hne : separator ≠ x := by
            rintro rfl
            simp at hx
          simp [hne, hfirst]
        · exact ih (hsplit ▸ List.mem_cons_of_mem _ hrest)

/-- What the harness reads holds no comma. -/
theorem comma_not_mem_of_mem_splitArgs {raw arg : String} (h : arg ∈ splitArgs raw) :
    ',' ∉ arg.toList := by
  obtain ⟨hmem, -⟩ := List.mem_filter.mp h
  obtain ⟨text, htext, rfl⟩ := List.mem_map.mp hmem
  obtain ⟨piece, hpiece, rfl⟩ := List.mem_map.mp htext
  rw [mem_trim_iff (by decide), String.toList_ofList]
  exact not_mem_of_mem_splitOn hpiece

theorem splitArgs_joinArgs {args : List String} (htrimmed : ∀ arg ∈ args, IsTrimmedArg arg)
    (hcomma : ∀ arg ∈ args, ',' ∉ arg.toList) : splitArgs (joinArgs args) = args := by
  by_cases hempty : args = []
  · rw [hempty]
    decide
  · have hpieces : (joinArgs args).toList.splitOn ',' = args.map String.toList := by
      rw [joinArgs, String.toList_intercalate]
      apply List.splitOn_intercalate
      · intro piece hpiece
        obtain ⟨arg, harg, rfl⟩ := List.mem_map.mp hpiece
        exact hcomma arg harg
      · simpa using hempty
    have htrim : (args.map String.toList |>.map String.ofList).map trim = args := by
      simp only [List.map_map]
      conv_rhs => rw [← List.map_id args]
      refine List.map_congr_left fun arg harg => ?_
      simpa using (htrimmed arg harg).1
    rw [splitArgs, hpieces, htrim, List.filter_eq_self]
    intro arg harg
    simpa using (htrimmed arg harg).2

/-- The harness reads back the list of the desktop if and only if no argument holds a
comma. -/
theorem agentArgs_roundTrip_iff (exeSuffix command : String) (agentArgs : List String) :
    splitArgs (joinArgs (normalizeAgentArgs exeSuffix command agentArgs)) =
        normalizeAgentArgs exeSuffix command agentArgs ↔
      ∀ arg ∈ agentArgs, ',' ∉ arg.toList := by
  have hblank : isWhitespace ',' = false := by decide
  have hcases := normalizeAgentArgs_cases exeSuffix command agentArgs
  constructor
  · intro hround arg harg hcomma
    have htrimmed : ',' ∈ (trim arg).toList := (mem_trim_iff hblank arg).mpr hcomma
    have hmem : trim arg ∈ (agentArgs.map trim).filter (fun arg => arg ≠ "") := by
      refine List.mem_filter.mpr ⟨List.mem_map_of_mem harg, ?_⟩
      have hne : trim arg ≠ "" := by
        intro hempty
        rw [hempty] at htrimmed
        cases htrimmed
      simpa using hne
    rcases hcases with hsame | ⟨-, hacp⟩
    · rw [← hsame, ← hround] at hmem
      exact comma_not_mem_of_mem_splitArgs hmem htrimmed
    · have hname := (eqIgnoreAsciiCase_iff _ _).mp (hacp _ hmem)
      have hlower : ',' ∈ (toAsciiLowercase (trim arg)).toList := by
        rw [toList_toAsciiLowercase]
        exact List.mem_map.mpr ⟨',', htrimmed, rfl⟩
      rw [hname] at hlower
      revert hlower
      decide
  · intro hcomma
    refine splitArgs_joinArgs (fun arg harg => isTrimmedArg_of_mem_normalizeAgentArgs harg) ?_
    intro arg harg
    rcases hcases with hsame | ⟨hdefault, -⟩
    · rw [hsame] at harg
      obtain ⟨raw, hraw, rfl⟩ := List.mem_map.mp (List.mem_filter.mp harg).1
      rw [mem_trim_iff hblank]
      exact hcomma raw hraw
    · rw [hdefault arg harg]
      decide

/-- One argument with a comma arrives as two. -/
theorem agentArgs_comma_splits :
    splitArgs (joinArgs (normalizeAgentArgs "" "my-agent" ["--tools=read,write"])) =
        ["--tools=read", "write"] ∧
      normalizeAgentArgs "" "my-agent" ["--tools=read,write"] = ["--tools=read,write"] := by
  decide

end RoundTrip

end Buzz
