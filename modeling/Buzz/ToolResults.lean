import Buzz.AgentLoop
import Buzz.Utf8Offsets

/-!
# The content of a tool result

The blocks that a tool returns are put together under two budgets, one for all of it and one for
its text. Text collects until an image comes, and is then cut in its middle to what is left. Where
no more than the room for a marker is left there is no marker either.
-/

namespace Buzz

open Utf8Offsets (size takeBytes dropBytes floorBoundary ceilBoundary)

section Code

def truncateAtBoundary (s : String) (max : ℕ) : String :=
  if s.utf8ByteSize ≤ max then s
  else String.ofList (takeBytes (floorBoundary s.toList max) s.toList)

/-- `ELISION_MARKER_ALLOWANCE`. -/
def elisionMarkerAllowance : ℕ := 128

def elisionMarker (elided total : ℕ) : String :=
  "[... " ++ toString elided ++ " of " ++ toString total ++ " bytes elided from tool result ...]"

def truncateMiddle (s : String) (max : ℕ) : String :=
  if s.utf8ByteSize ≤ max then s
  else
    let keep := max - elisionMarkerAllowance
    if keep = 0 then truncateAtBoundary s max
    else
      let head := truncateAtBoundary s ((keep + 1) / 2)
      let tailStart := ceilBoundary s.toList (s.utf8ByteSize - keep / 2)
      let tail := String.ofList (dropBytes tailStart s.toList)
      let elided := s.utf8ByteSize - head.utf8ByteSize - tail.utf8ByteSize
      head ++ "\n" ++ elisionMarker elided s.utf8ByteSize ++ "\n" ++ tail

inductive RawContent where
  | text (text : String)
  | image (data mimeType : String)
  | audio (data mimeType : String)
  | resourceLink (uri : String)
  | resource
  deriving DecidableEq, Repr

/-- `MARKER_FIELD_MAX`. -/
def markerFieldMax : ℕ := 256

def short (s : String) : String := truncateAtBoundary s markerFieldMax

def imageNote (data mimeType : String) : String :=
  "[image elided: " ++ short mimeType ++ ", " ++ toString data.utf8ByteSize ++
    " base64 bytes exceeds remaining tool-result budget]"

def audioNote (data mimeType : String) : String :=
  "[audio elided: " ++ short mimeType ++ ", " ++ toString data.utf8ByteSize ++ " bytes]"

/-- What stands for a block in the text. -/
def RawContent.shown : RawContent → String
  | text s => s
  | image data mimeType => imageNote data mimeType
  | audio data mimeType => audioNote data mimeType
  | resourceLink uri => "[resource: " ++ short uri ++ "]"
  | resource => "[resource elided]"

/-- Where a character of the text is from. -/
inductive Origin where
  | block
  | imageNote
  | other
  deriving DecidableEq, Repr

/-- A text as it is when it is cut to its budget. -/
structure Flush where
  text : String
  origins : List Origin
  budget : ℕ
  deriving DecidableEq, Repr

def appended (text s : String) : String := (if text = "" then text else text ++ "\n") ++ s

/-- The origins of the characters and the list of flushes are not in the source. -/
structure Assembly where
  out : List ToolResultContent
  text : String
  used : ℕ
  textUsed : ℕ
  origins : List Origin
  flushes : List Flush
  deriving DecidableEq, Repr

namespace Assembly

def start : Assembly := ⟨[], "", 0, 0, [], []⟩

variable (maxBytes maxTextBytes : ℕ)

def flushText (a : Assembly) : Assembly :=
  if a.text = "" then a
  else
    let budget := min (maxTextBytes - a.textUsed) (maxBytes - a.used)
    let kept := truncateMiddle a.text budget
    { out := if kept = "" then a.out else a.out ++ [.text kept]
      text := ""
      used := a.used + kept.utf8ByteSize
      textUsed := a.textUsed + kept.utf8ByteSize
      origins := []
      flushes := a.flushes ++ [⟨a.text, a.origins, budget⟩] }

def append (a : Assembly) (origin : Origin) (s : String) : Assembly :=
  { a with
    text := appended a.text s
    origins := (if a.text = "" then a.origins else a.origins ++ [.other]) ++
      List.replicate s.toList.length origin }

def addBlock (a : Assembly) : RawContent → Assembly
  | .text text => a.append .block text
  | .image data mimeType =>
      let a := a.flushText maxBytes maxTextBytes
      let imageBytes := data.utf8ByteSize + mimeType.utf8ByteSize
      if a.used + imageBytes ≤ maxBytes then
        { a with used := a.used + imageBytes, out := a.out ++ [.image data mimeType] }
      else a.append .imageNote (imageNote data mimeType)
  | .audio data mimeType => a.append .other (audioNote data mimeType)
  | .resourceLink uri => a.append .other ("[resource: " ++ short uri ++ "]")
  | .resource => a.append .other "[resource elided]"

def run (blocks : List RawContent) : Assembly :=
  (blocks.foldl (addBlock maxBytes maxTextBytes) start).flushText maxBytes maxTextBytes

end Assembly

def toolResultContent (blocks : List RawContent) (maxBytes maxTextBytes : ℕ) :
    List ToolResultContent :=
  (Assembly.run maxBytes maxTextBytes blocks).out

end Code

section Cuts

variable {s : String} {max : ℕ}

theorem truncateAtBoundary_eq (s : String) (max : ℕ) :
    truncateAtBoundary s max = String.ofList (takeBytes max s.toList) := by
  unfold truncateAtBoundary
  split_ifs with h
  · rw [Utf8Offsets.utf8ByteSize_eq] at h
    rw [Utf8Offsets.takeBytes_of_size_le h, String.ofList_toList]
  · rw [Utf8Offsets.takeBytes_floorBoundary]

theorem truncateMiddle_whole (h : s.utf8ByteSize ≤ max) : truncateMiddle s max = s :=
  if_pos h

/-- With no more than the allowance there is a head and nothing else. -/
theorem truncateMiddle_short (hmax : max ≤ elisionMarkerAllowance) :
    truncateMiddle s max = String.ofList (takeBytes max s.toList) := by
  unfold truncateMiddle
  split_ifs with h
  · rw [Utf8Offsets.utf8ByteSize_eq] at h
    rw [Utf8Offsets.takeBytes_of_size_le h, String.ofList_toList]
  · simp only [Nat.sub_eq_zero_of_le hmax, if_true]
    exact truncateAtBoundary_eq s max

/-- With more there are a head and a tail around a marker, which says how much is between them. -/
theorem truncateMiddle_middle (h : max < s.utf8ByteSize) (hmax : elisionMarkerAllowance < max) :
    ∃ head gap tail : List Char, s.toList = head ++ gap ++ tail ∧
      head = takeBytes ((max - elisionMarkerAllowance + 1) / 2) s.toList ∧
      tail = dropBytes (ceilBoundary s.toList
        (s.utf8ByteSize - (max - elisionMarkerAllowance) / 2)) s.toList ∧
      truncateMiddle s max = String.ofList head ++ "\n" ++
        elisionMarker (size gap) s.utf8ByteSize ++ "\n" ++ String.ofList tail ∧
      size head + size tail ≤ max - elisionMarkerAllowance := by
  have hsize := Utf8Offsets.utf8ByteSize_eq s
  generalize hkeep : max - elisionMarkerAllowance = keep
  have hroom : keep ≤ size s.toList := by omega
  obtain ⟨hcut, hboundary⟩ := @Utf8Offsets.ceilBoundary_spec s.toList
    (s.utf8ByteSize - keep / 2) (by omega)
  have hstart := Utf8Offsets.le_ceilBoundary s.toList (s.utf8ByteSize - keep / 2)
  generalize hcutEq : ceilBoundary s.toList (s.utf8ByteSize - keep / 2) = cut at *
  have hbefore := Utf8Offsets.size_takeBytes hboundary
  have hhead := Utf8Offsets.size_takeBytes_le ((keep + 1) / 2) s.toList
  have hparts := Utf8Offsets.takeBytes_append_dropBytes cut s.toList
  obtain ⟨gap, hgap⟩ := Utf8Offsets.prefix_of_size_le
    (Utf8Offsets.takeBytes_prefix ((keep + 1) / 2) s.toList)
    (Utf8Offsets.takeBytes_prefix cut s.toList) (by omega)
  refine ⟨takeBytes ((keep + 1) / 2) s.toList, gap, dropBytes cut s.toList, ?_, rfl, rfl, ?_, ?_⟩
  · rw [hgap, hparts]
  · have htotal := congrArg size hparts
    rw [← hgap, Utf8Offsets.size_append, Utf8Offsets.size_append] at htotal
    unfold truncateMiddle
    rw [if_neg (by omega)]
    simp only [hkeep]
    rw [if_neg (by omega), hcutEq, truncateAtBoundary_eq, Utf8Offsets.utf8ByteSize_ofList,
      Utf8Offsets.utf8ByteSize_ofList, show s.utf8ByteSize - size
        (takeBytes ((keep + 1) / 2) s.toList) -
        size (dropBytes cut s.toList) = size gap by omega]
  · have htotal := congrArg size hparts
    rw [Utf8Offsets.size_append, hbefore] at htotal
    omega

theorem utf8ByteSize_toString_le {n k : ℕ} (hk : 0 < k) (h : n < 10 ^ k) :
    (toString n).utf8ByteSize ≤ k := by
  have hascii : ∀ c ∈ Nat.toDigits 10 n, c.toNat < 128 := by
    intro c hc
    have hdigit := Nat.isDigit_of_mem_toDigits (by decide) (by decide) hc
    simp only [Char.isDigit, Bool.and_eq_true, decide_eq_true_eq, UInt32.le_iff_toNat_le] at hdigit
    exact lt_of_le_of_lt hdigit.2 (by decide)
  rw [Nat.toString_eq_ofList_toDigits, Utf8Offsets.utf8ByteSize_ofList,
    Utf8Offsets.size_of_ascii hascii]
  exact (Nat.length_toDigits_le_iff (by decide) hk).mpr h

/-- The allowance has room for the marker, the numbers being those of a machine word. -/
theorem utf8ByteSize_elisionMarker_le {elided total : ℕ} (helided : elided < 2 ^ 64)
    (htotal : total < 2 ^ 64) : (elisionMarker elided total).utf8ByteSize + 2 ≤
      elisionMarkerAllowance := by
  have hfirst := utf8ByteSize_toString_le (n := elided) (k := 20) (by decide) (by omega)
  have hsecond := utf8ByteSize_toString_le (n := total) (k := 20) (by decide) (by omega)
  have hopen : "[... ".utf8ByteSize = 5 := by decide
  have hof : " of ".utf8ByteSize = 4 := by decide
  have hclose : " bytes elided from tool result ...]".utf8ByteSize = 35 := by decide
  simp only [elisionMarker, String.utf8ByteSize_append, hopen, hof, hclose]
  unfold elisionMarkerAllowance
  omega

theorem utf8ByteSize_truncateMiddle_le (hsize : s.utf8ByteSize < 2 ^ 64) :
    (truncateMiddle s max).utf8ByteSize ≤ max := by
  by_cases h : s.utf8ByteSize ≤ max
  · rw [truncateMiddle_whole h]
    exact h
  · by_cases hmax : max ≤ elisionMarkerAllowance
    · rw [truncateMiddle_short hmax, Utf8Offsets.utf8ByteSize_ofList]
      exact Utf8Offsets.size_takeBytes_le max _
    · obtain ⟨head, gap, tail, hparts, -, -, heq, hkept⟩ := truncateMiddle_middle (Nat.not_le.mp h)
        (Nat.not_le.mp hmax)
      have htotal := congrArg size hparts
      rw [← Utf8Offsets.utf8ByteSize_eq, Utf8Offsets.size_append, Utf8Offsets.size_append] at htotal
      have hgap : size gap < 2 ^ 64 := by omega
      have hmarker := utf8ByteSize_elisionMarker_le hgap hsize
      have hline : "\n".utf8ByteSize = 1 := by decide
      rw [heq]
      simp only [String.utf8ByteSize_append, Utf8Offsets.utf8ByteSize_ofList, hline]
      omega

end Cuts

section Budgets

def textBytes (out : List ToolResultContent) : ℕ :=
  (out.map fun
    | .text s => s.utf8ByteSize
    | .image _ _ => 0).sum

/-- All that is emitted, the data of the images and their types with it. -/
def totalBytes (out : List ToolResultContent) : ℕ := (out.map ToolResultContent.estimatedBytes).sum

/-- Blocks whose texts fit into the memory together. -/
structure CallContent where
  blocks : List RawContent
  fits : (blocks.map fun block => block.shown.utf8ByteSize + 1).sum < 2 ^ 64

/-- The text itself, or its beginning and its end around a marker that counts what is between. -/
def ElidesMiddle (text : String) (_ : ℕ) (kept : String) : Prop :=
  kept = text ∨ ∃ head gap tail : String, text = head ++ gap ++ tail ∧
    kept = head ++ "\n" ++ elisionMarker gap.utf8ByteSize text.utf8ByteSize ++ "\n" ++ tail

/-- Where a marker has no room, a beginning that is in the budget. -/
def CutsHead (text : String) (budget : ℕ) (kept : String) : Prop :=
  budget ≤ elisionMarkerAllowance ∧ kept.utf8ByteSize ≤ budget ∧ ∃ rest, text = kept ++ rest

variable (maxBytes maxTextBytes : ℕ) (Kept : String → ℕ → String → Prop)

def budgetLeft (out : List ToolResultContent) : ℕ :=
  min (maxTextBytes - textBytes out) (maxBytes - totalBytes out)

/-- What a collected text adds to the output. -/
inductive Emits (before : List ToolResultContent) (text : String) : List ToolResultContent →
    Prop where
  | nothing : text = "" → Emits before text before
  | dropped : text ≠ "" → Kept text (budgetLeft maxBytes maxTextBytes before) "" →
      Emits before text before
  | kept {kept : String} : text ≠ "" → kept ≠ "" →
      Kept text (budgetLeft maxBytes maxTextBytes before) kept →
      Emits before text (before ++ [.text kept])

/-- How the output comes about from the blocks, `before` being what there is of it and `text` what
has been collected. An image goes in whole where it fits, and a note stands for it where it does
not. -/
inductive Assembles : List ToolResultContent → String → List RawContent → List ToolResultContent →
    Prop where
  | finish {before after : List ToolResultContent} {text : String} :
      Emits maxBytes maxTextBytes Kept before text after → Assembles before text [] after
  | shown {before out : List ToolResultContent} {text : String} {block : RawContent}
      {blocks : List RawContent} : (∀ data mimeType, block ≠ .image data mimeType) →
      Assembles before (appended text block.shown) blocks out →
      Assembles before text (block :: blocks) out
  | image {before after out : List ToolResultContent} {text data mimeType : String}
      {blocks : List RawContent} : Emits maxBytes maxTextBytes Kept before text after →
      totalBytes after + (data.utf8ByteSize + mimeType.utf8ByteSize) ≤ maxBytes →
      Assembles (after ++ [.image data mimeType]) "" blocks out →
      Assembles before text (.image data mimeType :: blocks) out
  | elided {before after out : List ToolResultContent} {text data mimeType : String}
      {blocks : List RawContent} : Emits maxBytes maxTextBytes Kept before text after →
      maxBytes < totalBytes after + (data.utf8ByteSize + mimeType.utf8ByteSize) →
      Assembles after (imageNote data mimeType) blocks out →
      Assembles before text (.image data mimeType :: blocks) out

end Budgets

section Assembling

variable {maxBytes maxTextBytes : ℕ} {a : Assembly}

theorem textBytes_append (out more : List ToolResultContent) :
    textBytes (out ++ more) = textBytes out + textBytes more := by
  simp [textBytes]

theorem totalBytes_append (out more : List ToolResultContent) :
    totalBytes (out ++ more) = totalBytes out + totalBytes more := by
  simp [totalBytes]

/-- The totals are those of the output, and within their budgets. -/
structure Assembly.Within (maxBytes maxTextBytes : ℕ) (a : Assembly) : Prop where
  used : a.used = totalBytes a.out
  textUsed : a.textUsed = textBytes a.out
  total_le : a.used ≤ maxBytes
  text_le : a.textUsed ≤ maxTextBytes

theorem truncateMiddle_kept (text : String) (budget : ℕ) :
    ElidesMiddle text budget (truncateMiddle text budget) ∨
      CutsHead text budget (truncateMiddle text budget) := by
  by_cases h : text.utf8ByteSize ≤ budget
  · exact .inl (.inl (truncateMiddle_whole h))
  · by_cases hmax : budget ≤ elisionMarkerAllowance
    · have hparts := Utf8Offsets.takeBytes_append_dropBytes budget text.toList
      refine .inr ⟨hmax, ?_, String.ofList (dropBytes budget text.toList), ?_⟩
      · rw [truncateMiddle_short hmax, Utf8Offsets.utf8ByteSize_ofList]
        exact Utf8Offsets.size_takeBytes_le budget _
      · rw [truncateMiddle_short hmax, ← String.ofList_append, hparts, String.ofList_toList]
    · obtain ⟨head, gap, tail, hparts, -, -, heq, -⟩ := truncateMiddle_middle (Nat.not_le.mp h)
        (Nat.not_le.mp hmax)
      refine .inl (.inr ⟨String.ofList head, String.ofList gap, String.ofList tail, ?_, ?_⟩)
      · rw [← String.ofList_append, ← String.ofList_append, ← hparts, String.ofList_toList]
      · rw [heq, Utf8Offsets.utf8ByteSize_ofList]

theorem flushText_within (h : a.Within maxBytes maxTextBytes)
    (hsize : a.text.utf8ByteSize < 2 ^ 64) :
    (a.flushText maxBytes maxTextBytes).Within maxBytes maxTextBytes := by
  unfold Assembly.flushText
  split_ifs with htext
  · exact h
  · have hkept := @utf8ByteSize_truncateMiddle_le a.text
      (min (maxTextBytes - a.textUsed) (maxBytes - a.used)) hsize
    have htotal := h.total_le
    have htextLe := h.text_le
    refine ⟨?_, ?_, ?_, ?_⟩
    · simp only
      split_ifs with hnil
      · rw [hnil, h.used]
        rfl
      · rw [totalBytes_append, h.used]
        rfl
    · simp only
      split_ifs with hnil
      · rw [hnil, h.textUsed]
        rfl
      · rw [textBytes_append, h.textUsed]
        rfl
    · simp only
      omega
    · simp only
      omega

variable {Kept : String → ℕ → String → Prop}

/-- What a flush adds, if what is kept of its text is as it should be. -/
theorem flushText_emits (h : a.Within maxBytes maxTextBytes)
    (hkept : ∀ f ∈ (a.flushText maxBytes maxTextBytes).flushes,
      Kept f.text f.budget (truncateMiddle f.text f.budget)) :
    Emits maxBytes maxTextBytes Kept a.out a.text (a.flushText maxBytes maxTextBytes).out := by
  unfold Assembly.flushText at hkept ⊢
  split_ifs at hkept ⊢ with htext
  · exact .nothing htext
  · have hbudget : min (maxTextBytes - a.textUsed) (maxBytes - a.used) =
        budgetLeft maxBytes maxTextBytes a.out := by
      rw [budgetLeft, h.used, h.textUsed]
    simp only [hbudget] at hkept ⊢
    have hlast := hkept _ (List.mem_append_right _ (List.mem_singleton_self _))
    split_ifs with hnil
    · rw [hnil] at hlast
      exact .dropped htext hlast
    · exact .kept htext hnil hlast

theorem flushText_text (a : Assembly) : (a.flushText maxBytes maxTextBytes).text = "" := by
  unfold Assembly.flushText
  split_ifs with htext
  · exact htext
  · rfl

theorem utf8ByteSize_appended_le (text s : String) :
    (appended text s).utf8ByteSize ≤ text.utf8ByteSize + (s.utf8ByteSize + 1) := by
  have hline : "\n".utf8ByteSize = 1 := by decide
  unfold appended
  rw [String.utf8ByteSize_append]
  split_ifs
  · omega
  · rw [String.utf8ByteSize_append, hline]
    omega

/-- The room that the blocks still to come may take. -/
def roomOf (blocks : List RawContent) : ℕ :=
  (blocks.map fun block => block.shown.utf8ByteSize + 1).sum

theorem append_within {origin : Origin} {s : String} (h : a.Within maxBytes maxTextBytes) :
    (a.append origin s).Within maxBytes maxTextBytes :=
  ⟨h.used, h.textUsed, h.total_le, h.text_le⟩

/-- An image that fits, behind the text before it. -/
def Assembly.withImage (a : Assembly) (data mimeType : String) : Assembly :=
  { a with
    used := a.used + (data.utf8ByteSize + mimeType.utf8ByteSize)
    out := a.out ++ [.image data mimeType] }

theorem addBlock_image (a : Assembly) (data mimeType : String) :
    a.addBlock maxBytes maxTextBytes (.image data mimeType) =
      if (a.flushText maxBytes maxTextBytes).used + (data.utf8ByteSize + mimeType.utf8ByteSize) ≤
          maxBytes then
        (a.flushText maxBytes maxTextBytes).withImage data mimeType
      else (a.flushText maxBytes maxTextBytes).append .imageNote (imageNote data mimeType) :=
  rfl

theorem withImage_within {data mimeType : String} (h : a.Within maxBytes maxTextBytes)
    (hfit : a.used + (data.utf8ByteSize + mimeType.utf8ByteSize) ≤ maxBytes) :
    (a.withImage data mimeType).Within maxBytes maxTextBytes := by
  refine ⟨?_, ?_, hfit, h.text_le⟩
  · rw [Assembly.withImage, totalBytes_append, ← h.used]
    rfl
  · rw [Assembly.withImage, textBytes_append, ← h.textUsed]
    rfl

theorem flushText_flushes (a : Assembly) :
    a.flushes <+: (a.flushText maxBytes maxTextBytes).flushes := by
  unfold Assembly.flushText
  split_ifs
  · exact List.prefix_rfl
  · exact List.prefix_append _ _

theorem addBlock_flushes (a : Assembly) (block : RawContent) :
    a.flushes <+: (a.addBlock maxBytes maxTextBytes block).flushes := by
  cases block with
  | image data mimeType =>
      rw [addBlock_image]
      split_ifs
      · exact flushText_flushes a
      · exact flushText_flushes a
  | _ => exact List.prefix_rfl

theorem foldl_flushes (a : Assembly) (blocks : List RawContent) :
    a.flushes <+: ((blocks.foldl (Assembly.addBlock maxBytes maxTextBytes) a).flushText maxBytes
      maxTextBytes).flushes := by
  induction blocks generalizing a with
  | nil => exact flushText_flushes a
  | cons block blocks ih => exact (addBlock_flushes a block).trans (ih _)

/-- Block by block the output is assembled, and its totals stay within the budgets. -/
theorem assembles_foldl (blocks : List RawContent) (h : a.Within maxBytes maxTextBytes)
    (hroom : a.text.utf8ByteSize + roomOf blocks < 2 ^ 64)
    (hkept : ∀ f ∈ ((blocks.foldl (Assembly.addBlock maxBytes maxTextBytes) a).flushText maxBytes
      maxTextBytes).flushes, Kept f.text f.budget (truncateMiddle f.text f.budget)) :
    (((blocks.foldl (Assembly.addBlock maxBytes maxTextBytes) a).flushText maxBytes
        maxTextBytes).Within maxBytes maxTextBytes) ∧
      Assembles maxBytes maxTextBytes Kept a.out a.text blocks
        ((blocks.foldl (Assembly.addBlock maxBytes maxTextBytes) a).flushText maxBytes
          maxTextBytes).out := by
  induction blocks generalizing a with
  | nil =>
      rw [roomOf, List.map_nil, List.sum_nil] at hroom
      rw [List.foldl_nil] at hkept ⊢
      exact ⟨flushText_within h hroom, .finish (flushText_emits h hkept)⟩
  | cons block blocks ih =>
      rw [roomOf, List.map_cons, List.sum_cons, ← roomOf] at hroom
      have hshown : ∀ origin s, block.shown = s → (∀ data mimeType, block ≠ .image data mimeType) →
          Assembly.addBlock maxBytes maxTextBytes a block = a.append origin s →
          (((List.foldl (Assembly.addBlock maxBytes maxTextBytes) a (block :: blocks)).flushText
            maxBytes maxTextBytes).Within maxBytes maxTextBytes) ∧
          Assembles maxBytes maxTextBytes Kept a.out a.text (block :: blocks)
            ((List.foldl (Assembly.addBlock maxBytes maxTextBytes) a (block :: blocks)).flushText
              maxBytes maxTextBytes).out := by
        intro origin s hs hnot hstep
        have hsize := utf8ByteSize_appended_le a.text s
        rw [List.foldl_cons, hstep] at hkept ⊢
        obtain ⟨hwithin, hrest⟩ := ih (@append_within _ _ _ origin s h) (by
          show (appended a.text s).utf8ByteSize + _ < _
          rw [← hs] at hsize ⊢
          omega) hkept
        exact ⟨hwithin, .shown hnot (hs ▸ hrest)⟩
      cases block with
      | text s => exact hshown .block s rfl (fun _ _ h => by cases h) rfl
      | audio data mimeType | resourceLink uri | resource =>
          exact hshown .other _ rfl (fun _ _ h => by cases h) rfl
      | image data mimeType =>
          have hflushed := flushText_within h (by omega)
          have hnil := @flushText_text maxBytes maxTextBytes a
          rw [List.foldl_cons, addBlock_image] at hkept ⊢
          have hemits : Emits maxBytes maxTextBytes Kept a.out a.text
              (a.flushText maxBytes maxTextBytes).out := by
            refine flushText_emits h fun f hf => hkept f ?_
            split_ifs
            · exact (foldl_flushes _ blocks).subset hf
            · exact (foldl_flushes _ blocks).subset hf
          split_ifs at hkept ⊢ with hfit
          · have htext : ((a.flushText maxBytes maxTextBytes).withImage data mimeType).text =
              "" := hnil
            obtain ⟨hwithin, hrest⟩ := ih (withImage_within hflushed hfit) (by
              rw [htext, String.utf8ByteSize_empty]
              omega) hkept
            rw [hflushed.used] at hfit
            rw [htext] at hrest
            exact ⟨hwithin, .image hemits hfit hrest⟩
          · have htext : ((a.flushText maxBytes maxTextBytes).append .imageNote
                (imageNote data mimeType)).text = imageNote data mimeType := by
              show appended (a.flushText maxBytes maxTextBytes).text _ = _
              rw [hnil, appended, if_pos rfl, String.empty_append]
            obtain ⟨hwithin, hrest⟩ := ih (append_within hflushed) (by
              rw [htext]
              simp only [RawContent.shown] at hroom
              omega) hkept
            rw [hflushed.used, Nat.not_le] at hfit
            rw [htext] at hrest
            exact ⟨hwithin, .elided hemits hfit hrest⟩

theorem start_within : Assembly.start.Within maxBytes maxTextBytes :=
  ⟨rfl, rfl, Nat.zero_le _, Nat.zero_le _⟩

theorem start_room (content : CallContent) :
    Assembly.start.text.utf8ByteSize + roomOf content.blocks < 2 ^ 64 := by
  have hfits := content.fits
  rw [← roomOf] at hfits
  rw [Assembly.start, String.utf8ByteSize_empty]
  omega

/-- The output is in both budgets and is assembled from its blocks: the images that fit as they are,
and of each collected text the whole, a beginning and an end around a marker, or, where no more than
128 bytes are left, a beginning. -/
theorem toolResultContent_assembles (content : CallContent) (maxBytes maxTextBytes : ℕ) :
    totalBytes (toolResultContent content.blocks maxBytes maxTextBytes) ≤ maxBytes ∧
      textBytes (toolResultContent content.blocks maxBytes maxTextBytes) ≤ maxTextBytes ∧
      Assembles maxBytes maxTextBytes
        (fun text budget kept => ElidesMiddle text budget kept ∨ CutsHead text budget kept) [] ""
        content.blocks (toolResultContent content.blocks maxBytes maxTextBytes) := by
  obtain ⟨hwithin, hassembles⟩ := @assembles_foldl maxBytes maxTextBytes Assembly.start
    (fun text budget kept => ElidesMiddle text budget kept ∨ CutsHead text budget kept)
    content.blocks start_within (start_room content) fun f _ => truncateMiddle_kept f.text f.budget
  refine ⟨?_, ?_, hassembles⟩
  · exact hwithin.used ▸ hwithin.total_le
  · exact hwithin.textUsed ▸ hwithin.text_le

end Assembling

section Exactness

variable {maxBytes maxTextBytes : ℕ} {a : Assembly}

/-- The output is in both budgets, and each text of it is whole or cut in its middle. -/
def CutsExactly (content : CallContent) (maxBytes maxTextBytes : ℕ) : Prop :=
  totalBytes (toolResultContent content.blocks maxBytes maxTextBytes) ≤ maxBytes ∧
    textBytes (toolResultContent content.blocks maxBytes maxTextBytes) ≤ maxTextBytes ∧
    Assembles maxBytes maxTextBytes ElidesMiddle [] "" content.blocks
      (toolResultContent content.blocks maxBytes maxTextBytes)

/-- The text fits, or there is more room than a marker takes, or its first bytes happen to be its
own beginning and end around the marker that counts what is between. -/
def Flush.Spacious (f : Flush) : Prop :=
  f.text.utf8ByteSize ≤ f.budget ∨ elisionMarkerAllowance < f.budget ∨
    ElidesMiddle f.text f.budget (String.ofList (takeBytes f.budget f.text.toList))

theorem elidesMiddle_iff_spacious (f : Flush) :
    ElidesMiddle f.text f.budget (truncateMiddle f.text f.budget) ↔ f.Spacious := by
  by_cases hwhole : f.text.utf8ByteSize ≤ f.budget
  · exact ⟨fun _ => .inl hwhole, fun _ => .inl (truncateMiddle_whole hwhole)⟩
  · by_cases hroom : elisionMarkerAllowance < f.budget
    · obtain ⟨head, gap, tail, hparts, -, -, heq, -⟩ := truncateMiddle_middle
        (Nat.not_le.mp hwhole) hroom
      refine ⟨fun _ => .inr (.inl hroom), fun _ => .inr ⟨String.ofList head, String.ofList gap,
        String.ofList tail, ?_, ?_⟩⟩
      · rw [← String.ofList_append, ← String.ofList_append, ← hparts, String.ofList_toList]
      · rw [heq, Utf8Offsets.utf8ByteSize_ofList]
    · rw [truncateMiddle_short (Nat.not_lt.mp hroom)]
      exact ⟨fun h => .inr (.inr h), fun h => (h.resolve_left hwhole).resolve_left hroom⟩

theorem marked_size {head tail : String} {elided total : ℕ} :
    4 < (head ++ "\n" ++ elisionMarker elided total ++ "\n" ++ tail).utf8ByteSize := by
  have hopen : "[... ".utf8ByteSize = 5 := by decide
  simp only [elisionMarker, String.utf8ByteSize_append, hopen]
  omega

/-- A piece within the budget that is the text or has a marker leaves the code something to keep. -/
theorem truncateMiddle_ne_empty {text piece : String} {budget : ℕ} (htext : text ≠ "")
    (hpiece : ElidesMiddle text budget piece) (hsize : piece.utf8ByteSize ≤ budget) :
    truncateMiddle text budget ≠ "" := by
  by_cases hwhole : text.utf8ByteSize ≤ budget
  · rw [truncateMiddle_whole hwhole]
    exact htext
  · have hbudget : 4 < budget := by
      rcases hpiece with rfl | ⟨head, gap, tail, -, rfl⟩
      · exact absurd hsize hwhole
      · exact lt_of_lt_of_le marked_size hsize
    by_cases hroom : elisionMarkerAllowance < budget
    · obtain ⟨head, gap, tail, -, -, -, heq, -⟩ :=
        truncateMiddle_middle (Nat.not_le.mp hwhole) hroom
      intro hnil
      have hmarked := @marked_size (String.ofList head) (String.ofList tail) (size gap)
        text.utf8ByteSize
      rw [← heq, hnil, String.utf8ByteSize_empty] at hmarked
      omega
    · rw [truncateMiddle_short (Nat.not_lt.mp hroom)]
      cases hchars : text.toList with
      | nil => exact absurd (String.toList_eq_nil_iff.mp hchars) htext
      | cons c cs =>
          have hfirst := Char.utf8Size_le_four c
          rw [takeBytes, if_pos (by omega)]
          intro hnil
          have hlist := congrArg String.toList hnil
          rw [String.toList_ofList, String.toList_empty] at hlist
          cases hlist

theorem flushText_out (a : Assembly) : a.out <+: (a.flushText maxBytes maxTextBytes).out := by
  unfold Assembly.flushText
  split_ifs with htext
  · exact List.prefix_rfl
  · simp only
    split_ifs
    · exact List.prefix_rfl
    · exact List.prefix_append _ _

theorem addBlock_image_out (a : Assembly) (data mimeType : String) :
    (a.flushText maxBytes maxTextBytes).out <+:
      (a.addBlock maxBytes maxTextBytes (.image data mimeType)).out := by
  rw [addBlock_image]
  split_ifs
  · exact List.prefix_append _ _
  · exact List.prefix_rfl

theorem foldl_out (a : Assembly) (blocks : List RawContent) :
    a.out <+: ((blocks.foldl (Assembly.addBlock maxBytes maxTextBytes) a).flushText maxBytes
      maxTextBytes).out := by
  induction blocks generalizing a with
  | nil => exact flushText_out a
  | cons block blocks ih =>
      refine List.IsPrefix.trans ?_ (ih _)
      cases block with
      | image data mimeType => exact (flushText_out a).trans (addBlock_image_out a data mimeType)
      | _ => exact List.prefix_rfl

theorem emits_out {Kept : String → ℕ → String → Prop} {before after : List ToolResultContent}
    {text : String} (h : Emits maxBytes maxTextBytes Kept before text after) :
      before <+: after := by
  cases h with
  | nothing | dropped => exact List.prefix_rfl
  | kept => exact List.prefix_append _ _

theorem assembles_out {Kept : String → ℕ → String → Prop} {before out : List ToolResultContent}
    {text : String} {blocks : List RawContent}
    (h : Assembles maxBytes maxTextBytes Kept before text blocks out) : before <+: out := by
  induction h with
  | finish hemits => exact emits_out hemits
  | shown _ _ ih => exact ih
  | image hemits _ _ ih => exact (emits_out hemits).trans ((List.prefix_append _ _).trans ih)
  | elided hemits _ _ ih => exact (emits_out hemits).trans ih

/-- What an exact account of the output has behind a text is what the code has. -/
theorem flushText_of_emits (h : a.Within maxBytes maxTextBytes) {after out : List ToolResultContent}
    (hemits : Emits maxBytes maxTextBytes ElidesMiddle a.out a.text after) (hafter : after <+: out)
    (hcode : (a.flushText maxBytes maxTextBytes).out <+: out) (htotal : totalBytes out ≤ maxBytes)
    (htextTotal : textBytes out ≤ maxTextBytes) :
    after = (a.flushText maxBytes maxTextBytes).out ∧
      ∀ f ∈ (a.flushText maxBytes maxTextBytes).flushes, f ∈ a.flushes ∨ f.Spacious := by
  unfold Assembly.flushText at hcode ⊢
  cases hemits with
  | nothing htext =>
      rw [if_pos htext]
      exact ⟨rfl, fun f hf => .inl hf⟩
  | dropped htext hkept =>
      rcases hkept with hnil | ⟨head, gap, tail, -, hnil⟩
      · exact absurd hnil.symm htext
      · have hmarked := @marked_size head tail gap.utf8ByteSize a.text.utf8ByteSize
        rw [← hnil, String.utf8ByteSize_empty] at hmarked
        omega
  | @kept piece htext hpiece hkept =>
      have hbudget : min (maxTextBytes - a.textUsed) (maxBytes - a.used) =
          budgetLeft maxBytes maxTextBytes a.out := by
        rw [budgetLeft, h.used, h.textUsed]
      rw [if_neg htext] at hcode ⊢
      simp only [hbudget] at hcode ⊢
      obtain ⟨rest, hrest⟩ := hafter
      have hsize : piece.utf8ByteSize ≤ budgetLeft maxBytes maxTextBytes a.out := by
        rw [← hrest, totalBytes_append, totalBytes_append] at htotal
        rw [← hrest, textBytes_append, textBytes_append] at htextTotal
        simp only [totalBytes, textBytes, List.map_cons, List.map_nil, List.sum_cons, List.sum_nil,
          ToolResultContent.estimatedBytes] at htotal htextTotal
        unfold budgetLeft totalBytes textBytes
        omega
      have hne := truncateMiddle_ne_empty htext hkept hsize
      rw [if_neg hne] at hcode ⊢
      have hsame : [ToolResultContent.text piece] =
          [.text (truncateMiddle a.text (budgetLeft maxBytes maxTextBytes a.out))] := by
        obtain ⟨more, hmore⟩ := hcode
        rw [← hrest, List.append_assoc, List.append_assoc] at hmore
        exact (List.append_inj (List.append_cancel_left hmore) rfl).1.symm
      refine ⟨by rw [hsame], fun f hf => ?_⟩
      rcases List.mem_append.mp hf with hf | hf
      · exact .inl hf
      · rw [List.mem_singleton.mp hf]
        refine .inr ((elidesMiddle_iff_spacious _).mp ?_)
        cases hsame
        exact hkept

/-- In an exact account of the output no text was cut without room. -/
theorem spacious_of_assembles (blocks : List RawContent) (h : a.Within maxBytes maxTextBytes)
    (hroom : a.text.utf8ByteSize + roomOf blocks < 2 ^ 64) {out : List ToolResultContent}
    (hout : ((blocks.foldl (Assembly.addBlock maxBytes maxTextBytes) a).flushText maxBytes
      maxTextBytes).out = out) (htotal : totalBytes out ≤ maxBytes)
    (htextTotal : textBytes out ≤ maxTextBytes)
    (hassembles : Assembles maxBytes maxTextBytes ElidesMiddle a.out a.text blocks out) :
    ∀ f ∈ ((blocks.foldl (Assembly.addBlock maxBytes maxTextBytes) a).flushText maxBytes
      maxTextBytes).flushes, f ∈ a.flushes ∨ f.Spacious := by
  induction blocks generalizing a with
  | nil =>
      cases hassembles with
      | finish hemits =>
          exact (flushText_of_emits h hemits List.prefix_rfl (hout ▸ List.prefix_rfl) htotal
            htextTotal).2
  | cons block blocks ih =>
      rw [roomOf, List.map_cons, List.sum_cons, ← roomOf] at hroom
      rw [List.foldl_cons] at hout ⊢
      cases hassembles with
      | shown hnot hrest =>
          have hshown : ∀ origin, Assembly.addBlock maxBytes maxTextBytes a block =
              a.append origin block.shown → ∀ f ∈ ((blocks.foldl (Assembly.addBlock maxBytes
                maxTextBytes) (Assembly.addBlock maxBytes maxTextBytes a block)).flushText maxBytes
                maxTextBytes).flushes, f ∈ a.flushes ∨ f.Spacious := by
            intro origin hstep
            have hsize := utf8ByteSize_appended_le a.text block.shown
            rw [hstep] at hout ⊢
            refine ih (@append_within _ _ _ origin block.shown h) ?_ hout hrest
            show (appended a.text block.shown).utf8ByteSize + _ < _
            omega
          cases block with
          | text s => exact hshown .block rfl
          | audio data mimeType | resourceLink uri | resource => exact hshown .other rfl
          | image data mimeType => exact absurd rfl (hnot data mimeType)
      | @image _ after _ _ data mimeType _ hemits hfit hrest =>
          have hflushed := flushText_within h (by omega)
          have hcode : (a.flushText maxBytes maxTextBytes).out <+: out := by
            exact hout ▸ (addBlock_image_out a data mimeType).trans (foldl_out _ blocks)
          obtain ⟨hsame, hspacious⟩ := flushText_of_emits h hemits
            ((List.prefix_append _ _).trans (assembles_out hrest)) hcode htotal htextTotal
          rw [hsame, ← hflushed.used] at hfit
          rw [addBlock_image, if_pos hfit] at hout ⊢
          have htext : ((a.flushText maxBytes maxTextBytes).withImage data mimeType).text = "" :=
            flushText_text a
          intro f hf
          refine (ih (withImage_within hflushed hfit) ?_ hout ?_ f hf).elim (hspacious f) .inr
          · rw [htext, String.utf8ByteSize_empty]
            omega
          · rw [htext, Assembly.withImage, ← hsame]
            exact hrest
      | @elided _ after _ _ data mimeType _ hemits hfit hrest =>
          have hflushed := flushText_within h (by omega)
          have hcode : (a.flushText maxBytes maxTextBytes).out <+: out := by
            exact hout ▸ (addBlock_image_out a data mimeType).trans (foldl_out _ blocks)
          obtain ⟨hsame, hspacious⟩ := flushText_of_emits h hemits (assembles_out hrest)
            hcode htotal
            htextTotal
          rw [hsame, ← hflushed.used, ← Nat.not_le] at hfit
          rw [addBlock_image, if_neg hfit] at hout ⊢
          have htext : ((a.flushText maxBytes maxTextBytes).append .imageNote
              (imageNote data mimeType)).text = imageNote data mimeType := by
            show appended (a.flushText maxBytes maxTextBytes).text _ = _
            rw [flushText_text, appended, if_pos rfl, String.empty_append]
          intro f hf
          refine (ih (append_within hflushed) ?_ hout ?_ f hf).elim (hspacious f) .inr
          · rw [htext]
            simp only [RawContent.shown] at hroom
            omega
          · rw [htext]
            exact hsame ▸ hrest

theorem spacious_of_cutsExactly {content : CallContent}
    (h : CutsExactly content maxBytes maxTextBytes) :
    ∀ f ∈ (Assembly.run maxBytes maxTextBytes content.blocks).flushes, f.Spacious := by
  obtain ⟨htotal, htext, hassembles⟩ := h
  intro f hf
  refine (spacious_of_assembles content.blocks start_within (start_room content) rfl htotal htext
    hassembles f hf).resolve_left ?_
  exact List.not_mem_nil

/-- Both budgets are kept with every text whole or cut in its middle exactly when no text is longer
than a budget that has no room for a marker. -/
theorem cutsExactly_iff (content : CallContent) (maxBytes maxTextBytes : ℕ) :
    CutsExactly content maxBytes maxTextBytes ↔
      ∀ f ∈ (Assembly.run maxBytes maxTextBytes content.blocks).flushes, f.Spacious := by
  refine ⟨spacious_of_cutsExactly, fun h => ?_⟩
  obtain ⟨hwithin, hassembles⟩ := @assembles_foldl maxBytes maxTextBytes Assembly.start ElidesMiddle
    content.blocks start_within (start_room content) fun f hf =>
      (elidesMiddle_iff_spacious f).mpr (h f hf)
  refine ⟨?_, ?_, hassembles⟩
  · exact hwithin.used ▸ hwithin.total_le
  · exact hwithin.textUsed ▸ hwithin.text_le

def letters (n : ℕ) (c : Char) : String := String.ofList (List.replicate n c)

theorem utf8ByteSize_letters {c : Char} (hc : c.toNat < 128) (n : ℕ) :
    (letters n c).utf8ByteSize = n := by
  have hascii : ∀ d ∈ List.replicate n c, d.toNat < 128 := fun d hd =>
    (List.eq_of_mem_replicate hd).symm ▸ hc
  rw [letters, Utf8Offsets.utf8ByteSize_ofList, Utf8Offsets.size_of_ascii hascii,
    List.length_replicate]

theorem letters_ne_empty {c : Char} (hc : c.toNat < 128) {n : ℕ} (hn : n ≠ 0) :
    letters n c ≠ "" := by
  intro hnil
  have hsize := utf8ByteSize_letters hc n
  rw [hnil, String.utf8ByteSize_empty] at hsize
  exact hn hsize.symm

/-- Of the least budget for text a first text of 1000 bytes leaves 24 to the text behind an
image. -/
theorem flush_behind_image {first second : String} (hfirst : first.utf8ByteSize = 1000)
    (hfirstNe : first ≠ "") (hsecond : second ≠ "") :
    ⟨second, List.replicate second.toList.length .block, 24⟩ ∈
      (Assembly.run 8388608 1024
        [.text first, .image "aW1n" "image/png", .text second]).flushes := by
  have hflushed : ((Assembly.start.append .block first).flushText 8388608 1024) =
      ⟨[.text first], "", 1000, 1000, [],
        [⟨first, List.replicate first.toList.length .block, 1024⟩]⟩ := by
    simp only [Assembly.flushText, Assembly.append, Assembly.start, appended, if_true,
      String.empty_append, if_neg hfirstNe, Nat.sub_zero, Nat.zero_add, List.nil_append]
    rw [show min 1024 8388608 = 1024 from rfl, truncateMiddle_whole (by omega), if_neg hfirstNe,
      hfirst]
  have himage : (Assembly.addBlock 8388608 1024 (Assembly.start.append .block first)
      (.image "aW1n" "image/png")) =
      ⟨[.text first, .image "aW1n" "image/png"], "", 1013, 1000, [],
        [⟨first, List.replicate first.toList.length .block, 1024⟩]⟩ := by
    have hfit : 1000 + ("aW1n".utf8ByteSize + "image/png".utf8ByteSize) ≤ 8388608 := by decide
    rw [addBlock_image, hflushed, if_pos hfit]
    rfl
  show _ ∈ (((Assembly.addBlock 8388608 1024 (Assembly.start.append .block first)
    (.image "aW1n" "image/png")).append .block second).flushText 8388608 1024).flushes
  rw [himage, Assembly.flushText, if_neg]
  · refine List.mem_append_right _ (List.mem_singleton.mpr ?_)
    simp only [Assembly.append, appended, if_true, String.empty_append, List.nil_append]
    rfl
  · simp only [Assembly.append, appended, if_true, String.empty_append]
    exact hsecond

def crowdedContent : CallContent where
  blocks := [.text (letters 1000 'a'), .image "aW1n" "image/png", .text (letters 200 'b')]
  fits := by
    have hnote : (imageNote "aW1n" "image/png").utf8ByteSize ≤ 1000 := by decide +kernel
    simp only [List.map_cons, List.map_nil, List.sum_cons, List.sum_nil, RawContent.shown,
      utf8ByteSize_letters (show 'a'.toNat < 128 by decide),
      utf8ByteSize_letters (show 'b'.toNat < 128 by decide)]
    omega

theorem crowded_result_has_no_marker :
    ¬∀ (content : CallContent) (maxBytes maxTextBytes : ℕ),
      CutsExactly content maxBytes maxTextBytes := by
  intro h
  have hspacious := spacious_of_cutsExactly (h crowdedContent 8388608 1024) _
    (flush_behind_image (utf8ByteSize_letters (by decide) 1000)
      (letters_ne_empty (by decide) (by decide)) (letters_ne_empty (by decide) (by decide)))
  have hsize := utf8ByteSize_letters (show 'b'.toNat < 128 by decide) 200
  have hhead : takeBytes 24 (List.replicate 200 'b') = List.replicate 24 'b' := by decide +kernel
  rcases hspacious with hwhole | hroom | hkept | ⟨head, gap, tail, -, hmarked⟩
  · simp only [hsize] at hwhole
    omega
  · exact absurd hroom (by decide)
  · have hkeptSize := congrArg String.utf8ByteSize hkept
    simp only [letters, String.toList_ofList, hhead] at hkeptSize
    rw [← letters, ← letters, hsize, utf8ByteSize_letters (by decide)] at hkeptSize
    omega
  · simp only [letters, String.toList_ofList, hhead] at hmarked
    have hline : '\n' ∈ (String.ofList (List.replicate 24 'b')).toList := by
      rw [hmarked, String.toList_append, String.toList_append]
      exact List.mem_append_left _ (List.mem_append_right _ (List.mem_singleton_self _))
    rw [String.toList_ofList] at hline
    exact absurd (List.eq_of_mem_replicate hline) (by decide)

end Exactness

end Buzz
