import Buzz.ToolResults

/-!
# What a tool result leaves out

A result that leaves something out should say so. The marker of a text that is cut in its middle
does, and so do the notes in the text. A text that is cut to no more than the room for a marker says
nothing, and what it loses may be a note.
-/

namespace Buzz

open Utf8Offsets (size takeBytes dropBytes ceilBoundary)

section Losses

/-- The texts that say that something was elided. -/
inductive Marker : String → Prop where
  | elision (elided total : ℕ) : Marker (elisionMarker elided total)
  | image (data mimeType : String) : Marker (imageNote data mimeType)
  | audio (data mimeType : String) : Marker (audioNote data mimeType)
  | resource : Marker "[resource elided]"

def ContainsMarker (out : List ToolResultContent) : Prop :=
  ∃ text, .text text ∈ out ∧ ∃ marker, Marker marker ∧ marker.toList <:+: text.toList

/-- The cut that leaves a marker. -/
def Flush.Marked (f : Flush) : Prop :=
  f.budget < f.text.utf8ByteSize ∧ elisionMarkerAllowance < f.budget

instance (f : Flush) : Decidable f.Marked := inferInstanceAs (Decidable (_ ∧ _))

/-- The characters that are kept of the beginning of a text. -/
def Flush.headLen (f : Flush) : ℕ :=
  if f.Marked then (takeBytes ((f.budget - elisionMarkerAllowance + 1) / 2) f.text.toList).length
  else (takeBytes f.budget f.text.toList).length

/-- And of its end. -/
def Flush.tailLen (f : Flush) : ℕ :=
  if f.Marked then
    (dropBytes (ceilBoundary f.text.toList
      (f.text.utf8ByteSize - (f.budget - elisionMarkerAllowance) / 2)) f.text.toList).length
  else 0

/-- The origins of the characters between them. -/
def Flush.lost (f : Flush) : List Origin :=
  (f.origins.drop f.headLen).take (f.text.toList.length - f.headLen - f.tailLen)

def blockImages (blocks : List RawContent) : List (String × String) :=
  blocks.filterMap fun
    | .image data mimeType => some (data, mimeType)
    | _ => none

def keptImages (out : List ToolResultContent) : List (String × String) :=
  out.filterMap fun
    | .image data mimeType => some (data, mimeType)
    | .text _ => none

/-- A byte of a text block or an image is not in the output. -/
def LeavesOut (blocks : List RawContent) (maxBytes maxTextBytes : ℕ) : Prop :=
  keptImages (toolResultContent blocks maxBytes maxTextBytes) ≠ blockImages blocks ∨
    ∃ f ∈ (Assembly.run maxBytes maxTextBytes blocks).flushes, Origin.block ∈ f.lost

/-- No text is cut without a marker and loses, behind what is kept, a byte of a text block or of the
note of an image; or the text kept of some cut has a marker in it. -/
def Announced (blocks : List RawContent) (maxBytes maxTextBytes : ℕ) : Prop :=
  (∃ f ∈ (Assembly.run maxBytes maxTextBytes blocks).flushes, f.Marked) ∨
    (∃ f ∈ (Assembly.run maxBytes maxTextBytes blocks).flushes, ∃ marker, Marker marker ∧
      marker.toList <:+: takeBytes f.budget f.text.toList) ∨
    ∀ f ∈ (Assembly.run maxBytes maxTextBytes blocks).flushes, f.budget ≤ elisionMarkerAllowance →
      ∀ origin ∈ f.origins.drop (takeBytes f.budget f.text.toList).length, origin = .other

end Losses

section Kept

variable {f : Flush}

theorem truncateMiddle_unmarked (h : ¬f.Marked) :
    truncateMiddle f.text f.budget = String.ofList (takeBytes f.budget f.text.toList) := by
  by_cases hwhole : f.text.utf8ByteSize ≤ f.budget
  · have hsize := Utf8Offsets.utf8ByteSize_eq f.text
    rw [truncateMiddle_whole hwhole, Utf8Offsets.takeBytes_of_size_le (by omega),
      String.ofList_toList]
  · exact truncateMiddle_short (Nat.not_lt.mp fun hroom => h ⟨Nat.not_le.mp hwhole, hroom⟩)

theorem contains_of_marked (h : f.Marked) {out : List ToolResultContent}
    (hout : .text (truncateMiddle f.text f.budget) ∈ out) : ContainsMarker out := by
  obtain ⟨head, gap, tail, -, -, -, heq, -⟩ := truncateMiddle_middle h.1 h.2
  refine ⟨_, hout, _, .elision (size gap) f.text.utf8ByteSize, ?_⟩
  refine ⟨head ++ "\n".toList, "\n".toList ++ tail, ?_⟩
  rw [heq]
  simp only [String.toList_append, String.toList_ofList, List.append_assoc]

theorem marked_ne_empty (h : f.Marked) : truncateMiddle f.text f.budget ≠ "" := by
  obtain ⟨head, gap, tail, -, -, -, heq, -⟩ := truncateMiddle_middle h.1 h.2
  intro hnil
  have hsize := congrArg String.utf8ByteSize (heq.symm.trans hnil)
  have hline : "\n".utf8ByteSize = 1 := by decide
  simp only [String.utf8ByteSize_append, hline, String.utf8ByteSize_empty] at hsize
  omega

theorem marker_size_pos {marker : String} (h : Marker marker) : 0 < marker.utf8ByteSize := by
  have hlast : ∀ first rest : String, 0 < rest.utf8ByteSize → 0 < (first ++ rest).utf8ByteSize := by
    intro first rest hpos
    rw [String.utf8ByteSize_append]
    exact Nat.add_pos_right _ hpos
  cases h with
  | elision elided total => exact hlast _ " bytes elided from tool result ...]" (by decide)
  | image data mimeType =>
      exact hlast _ " base64 bytes exceeds remaining tool-result budget]" (by decide)
  | audio data mimeType => exact hlast _ " bytes]" (by decide)
  | resource => decide

theorem marker_ne_nil {marker : String} (h : Marker marker) : marker.toList ≠ [] := by
  intro hnil
  have hpos := marker_size_pos h
  rw [Utf8Offsets.utf8ByteSize_eq, hnil] at hpos
  exact Nat.lt_irrefl 0 hpos

end Kept

section Tracing

variable {maxBytes maxTextBytes : ℕ} {a : Assembly} {done : List RawContent}

/-- The note of an image stands in the text, and the origins say so. -/
def HasNote (text : String) (origins : List Origin) : Prop :=
  ∃ before after data mimeType originsBefore originsAfter,
    text.toList = before ++ (imageNote data mimeType).toList ++ after ∧
    origins = originsBefore ++ List.replicate (imageNote data mimeType).toList.length .imageNote ++
      originsAfter ∧ originsBefore.length = before.length

/-- Either no image of the blocks so far is missing and nothing stands for one, or one is missing
and its note is in a text. -/
def Assembly.ImagesTold (done : List RawContent) (a : Assembly) : Prop :=
  (keptImages a.out = blockImages done ∧ (∀ f ∈ a.flushes, Origin.imageNote ∉ f.origins) ∧
      Origin.imageNote ∉ a.origins) ∨
    ((keptImages a.out).length < (blockImages done).length ∧
      ((∃ f ∈ a.flushes, HasNote f.text f.origins) ∨ HasNote a.text a.origins))

/-- The texts of the output are what is kept of the flushed ones. -/
structure Assembly.Traced (done : List RawContent) (a : Assembly) : Prop where
  emitted : ∀ f ∈ a.flushes, truncateMiddle f.text f.budget ≠ "" →
    .text (truncateMiddle f.text f.budget) ∈ a.out
  flushed : ∀ text, .text text ∈ a.out → ∃ f ∈ a.flushes, text = truncateMiddle f.text f.budget
  images : a.ImagesTold done
  aligned : ∀ f ∈ a.flushes, f.origins.length = f.text.toList.length
  pending : a.origins.length = a.text.toList.length

theorem start_traced : Assembly.start.Traced [] :=
  ⟨by simp [Assembly.start], by simp [Assembly.start], .inl ⟨rfl, by simp [Assembly.start],
    by simp [Assembly.start]⟩, by simp [Assembly.start], rfl⟩

theorem flushText_traced (h : a.Traced done) : (a.flushText maxBytes maxTextBytes).Traced done := by
  unfold Assembly.flushText
  split_ifs with htext
  · exact h
  · generalize hbudget : min (maxTextBytes - a.textUsed) (maxBytes - a.used) = budget
    have hkept : ∀ out : List ToolResultContent, keptImages
        (if truncateMiddle a.text budget = "" then out
          else out ++ [.text (truncateMiddle a.text budget)]) = keptImages out := by
      intro out
      split_ifs
      · rfl
      · simp [keptImages]
    refine ⟨?_, ?_, ?_, ?_, rfl⟩
    · intro f hf hne
      rcases List.mem_append.mp hf with hf | hf
      · have hmem := h.emitted f hf hne
        simp only
        split_ifs
        · exact hmem
        · exact List.mem_append_left _ hmem
      · rw [List.mem_singleton.mp hf] at hne ⊢
        simp only
        rw [if_neg hne]
        exact List.mem_append_right _ (List.mem_singleton_self _)
    · intro text hmem
      simp only at hmem
      have hold : .text text ∈ a.out → ∃ f ∈ a.flushes ++ [⟨a.text, a.origins, budget⟩],
          text = truncateMiddle f.text f.budget := fun hmem => by
        obtain ⟨f, hf, heq⟩ := h.flushed text hmem
        exact ⟨f, List.mem_append_left _ hf, heq⟩
      split_ifs at hmem
      · exact hold hmem
      · rcases List.mem_append.mp hmem with hmem | hmem
        · exact hold hmem
        · cases List.mem_singleton.mp hmem
          exact ⟨_, List.mem_append_right _ (List.mem_singleton_self _), rfl⟩
    · unfold Assembly.ImagesTold
      simp only [hkept]
      rcases h.images with ⟨hsame, hflushes, horigins⟩ | ⟨hmissing, hnote⟩
      · refine .inl ⟨hsame, ?_, List.not_mem_nil⟩
        intro f hf
        rcases List.mem_append.mp hf with hf | hf
        · exact hflushes f hf
        · rw [List.mem_singleton.mp hf]
          exact horigins
      · refine .inr ⟨hmissing, .inl ?_⟩
        rcases hnote with ⟨f, hf, hnote⟩ | hnote
        · exact ⟨f, List.mem_append_left _ hf, hnote⟩
        · exact ⟨_, List.mem_append_right _ (List.mem_singleton_self _), hnote⟩
    · intro f hf
      rcases List.mem_append.mp hf with hf | hf
      · exact h.aligned f hf
      · rw [List.mem_singleton.mp hf]
        exact h.pending

theorem hasNote_append {text s : String} {origins more : List Origin} (h : HasNote text origins) :
    HasNote (text ++ s) (origins ++ more) := by
  obtain ⟨before, after, data, mimeType, originsBefore, originsAfter, htext, horigins, hlength⟩ := h
  refine ⟨before, after ++ s.toList, data, mimeType, originsBefore, originsAfter ++ more, ?_, ?_,
    hlength⟩
  · rw [String.toList_append, htext, List.append_assoc]
  · rw [horigins, List.append_assoc]

theorem not_hasNote_empty (origins : List Origin) : ¬HasNote "" origins := by
  rintro ⟨before, after, data, mimeType, -, -, htext, -⟩
  have hnil := (List.append_eq_nil_iff.mp (List.append_eq_nil_iff.mp htext.symm).1).2
  exact marker_ne_nil (.image data mimeType) hnil

theorem append_text_eq (a : Assembly) (origin : Origin) (s : String) (htext : a.text ≠ "") :
    (a.append origin s).text = a.text ++ ("\n" ++ s) ∧
      (a.append origin s).origins = a.origins ++
        ([.other] ++ List.replicate s.toList.length origin) := by
  simp only [Assembly.append, appended, if_neg htext, String.append_assoc, List.append_assoc,
    and_self]

theorem append_origins {a : Assembly} {origin o : Origin} {s : String}
    (hmem : o ∈ (a.append origin s).origins) (horigin : origin ≠ o) (hother : o ≠ .other) :
    o ∈ a.origins := by
  simp only [Assembly.append] at hmem
  rcases List.mem_append.mp hmem with hmem | hmem
  · split_ifs at hmem
    · exact hmem
    · rcases List.mem_append.mp hmem with hmem | hmem
      · exact hmem
      · exact absurd (List.mem_singleton.mp hmem) hother
  · exact absurd (List.eq_of_mem_replicate hmem).symm horigin

theorem append_pending {origin : Origin} {s : String}
    (h : a.origins.length = a.text.toList.length) :
    (a.append origin s).origins.length = (a.append origin s).text.toList.length := by
  simp only [Assembly.append, appended]
  split_ifs
  · rw [List.length_append, List.length_replicate, String.toList_append, List.length_append, h]
  · rw [List.length_append, List.length_replicate, List.length_append, String.toList_append,
      List.length_append, String.toList_append, List.length_append, h]
    rfl

/-- A block that is no image adds to the text and leaves the images as they are. -/
theorem append_traced {origin : Origin} {s : String} {block : RawContent} (h : a.Traced done)
    (hblock : blockImages (done ++ [block]) = blockImages done) (horigin : origin ≠ .imageNote) :
    (a.append origin s).Traced (done ++ [block]) := by
  refine ⟨h.emitted, h.flushed, ?_, h.aligned, append_pending h.pending⟩
  unfold Assembly.ImagesTold
  rw [hblock]
  rcases h.images with ⟨hsame, hflushes, horigins⟩ | ⟨hmissing, hnote⟩
  · exact .inl ⟨hsame, hflushes, fun hmem =>
      horigins (append_origins hmem horigin (fun h => by cases h))⟩
  · refine .inr ⟨hmissing, hnote.imp_right fun hnote => ?_⟩
    have htext : a.text ≠ "" := by
      intro hnil
      rw [hnil] at hnote
      exact not_hasNote_empty _ hnote
    obtain ⟨htextEq, horiginsEq⟩ := append_text_eq a origin s htext
    rw [htextEq, horiginsEq]
    exact hasNote_append hnote

theorem blockImages_append (blocks more : List RawContent) :
    blockImages (blocks ++ more) = blockImages blocks ++ blockImages more := by
  rw [blockImages, List.filterMap_append, ← blockImages, ← blockImages]

theorem keptImages_append (out more : List ToolResultContent) :
    keptImages (out ++ more) = keptImages out ++ keptImages more := by
  rw [keptImages, List.filterMap_append, ← keptImages, ← keptImages]

theorem withImage_traced {data mimeType : String} (h : a.Traced done) :
    (a.withImage data mimeType).Traced (done ++ [.image data mimeType]) := by
  refine ⟨fun f hf hne => List.mem_append_left _ (h.emitted f hf hne), ?_, ?_, h.aligned, h.pending⟩
  · intro text hmem
    rcases List.mem_append.mp hmem with hmem | hmem
    · exact h.flushed text hmem
    · cases List.mem_singleton.mp hmem
  · have hkept : keptImages (a.withImage data mimeType).out = keptImages a.out ++
        [(data, mimeType)] :=
      keptImages_append _ _
    unfold Assembly.ImagesTold
    rw [hkept, blockImages_append]
    rcases h.images with ⟨hsame, hrest⟩ | ⟨hmissing, hrest⟩
    · exact .inl ⟨by rw [hsame]; rfl, hrest⟩
    · refine .inr ⟨?_, hrest⟩
      rw [List.length_append, List.length_append]
      exact Nat.add_lt_add_right hmissing 1

/-- An image that does not fit leaves its note at the beginning of a text. -/
theorem elided_traced {data mimeType : String} (h : a.Traced done) (htext : a.text = "") :
    (a.append .imageNote (imageNote data mimeType)).Traced (done ++ [.image data mimeType]) := by
  have horigins : a.origins = [] := by
    rw [← List.length_eq_zero_iff, h.pending, htext]
    rfl
  refine ⟨h.emitted, h.flushed, .inr ⟨?_, .inr ⟨[], [], data, mimeType, [], [], ?_, ?_, rfl⟩⟩,
    h.aligned, append_pending h.pending⟩
  · have hle : (keptImages a.out).length ≤ (blockImages done).length := by
      rcases h.images with ⟨hsame, -⟩ | ⟨hmissing, -⟩
      · rw [hsame]
      · exact hmissing.le
    rw [blockImages_append, List.length_append]
    exact Nat.lt_succ_of_le hle
  · simp only [Assembly.append, appended, htext, if_true, String.empty_append, List.nil_append,
      List.append_nil]
  · simp only [Assembly.append, htext, horigins, if_true, List.nil_append, List.append_nil]

theorem addBlock_traced (block : RawContent) (h : a.Traced done) :
    (a.addBlock maxBytes maxTextBytes block).Traced (done ++ [block]) := by
  have hshown : blockImages [block] = [] → blockImages (done ++ [block]) = blockImages done := by
    intro hblock
    rw [blockImages_append, hblock, List.append_nil]
  cases block with
  | text s | audio data mimeType | resourceLink uri | resource =>
      exact append_traced h (hshown rfl) (fun h => by cases h)
  | image data mimeType =>
      rw [addBlock_image]
      split_ifs
      · exact withImage_traced (flushText_traced h)
      · exact elided_traced (flushText_traced h) (flushText_text a)

theorem foldl_traced (blocks : List RawContent) (h : a.Traced done) :
    (blocks.foldl (Assembly.addBlock maxBytes maxTextBytes) a).Traced (done ++ blocks) := by
  induction blocks generalizing a done with
  | nil =>
      rw [List.append_nil]
      exact h
  | cons block blocks ih =>
      rw [List.foldl_cons, List.append_cons]
      exact ih (addBlock_traced block h)

theorem run_traced (blocks : List RawContent) (maxBytes maxTextBytes : ℕ) :
    (Assembly.run maxBytes maxTextBytes blocks).Traced blocks :=
  flushText_traced (foldl_traced blocks start_traced)

/-- At the end every note is in a text that was flushed. -/
theorem run_images (blocks : List RawContent) (maxBytes maxTextBytes : ℕ) :
    (keptImages (toolResultContent blocks maxBytes maxTextBytes) = blockImages blocks ∧
        ∀ f ∈ (Assembly.run maxBytes maxTextBytes blocks).flushes, Origin.imageNote ∉ f.origins) ∨
      keptImages (toolResultContent blocks maxBytes maxTextBytes) ≠ blockImages blocks ∧
        ∃ f ∈ (Assembly.run maxBytes maxTextBytes blocks).flushes, HasNote f.text f.origins := by
  rcases (run_traced blocks maxBytes maxTextBytes).images with ⟨hsame, hflushes, -⟩ |
    ⟨hmissing, hnote⟩
  · exact .inl ⟨hsame, hflushes⟩
  · refine .inr ⟨fun hsame => ?_, hnote.resolve_right ?_⟩
    · rw [toolResultContent] at hsame
      rw [hsame] at hmissing
      exact Nat.lt_irrefl _ hmissing
    · rw [Assembly.run, flushText_text]
      exact not_hasNote_empty _

end Tracing

section Announcing

variable {blocks : List RawContent} {maxBytes maxTextBytes : ℕ} {f : Flush}

/-- What a cut without a marker loses is what is behind its budget. -/
theorem lost_unmarked (h : ¬f.Marked) {origin : Origin} (hlost : origin ∈ f.lost) :
    origin ∈ f.origins.drop (takeBytes f.budget f.text.toList).length := by
  rw [Flush.lost, Flush.headLen, if_neg h] at hlost
  exact List.mem_of_mem_take hlost

theorem contains_of_kept (hf : f ∈ (Assembly.run maxBytes maxTextBytes blocks).flushes)
    {marker : String} (hmarker : Marker marker)
    (hkept : marker.toList <:+: (truncateMiddle f.text f.budget).toList) :
    ContainsMarker (toolResultContent blocks maxBytes maxTextBytes) := by
  refine ⟨_, (run_traced blocks maxBytes maxTextBytes).emitted f hf ?_, marker, hmarker, hkept⟩
  intro hnil
  rw [hnil] at hkept
  exact marker_ne_nil hmarker (List.infix_nil.mp hkept)

theorem contains_of_announced (hf : f ∈ (Assembly.run maxBytes maxTextBytes blocks).flushes)
    (h : f.Marked) : ContainsMarker (toolResultContent blocks maxBytes maxTextBytes) :=
  contains_of_marked h ((run_traced blocks maxBytes maxTextBytes).emitted f hf (marked_ne_empty h))

/-- A marker in the bytes that the budget lets through is in the output, or another one is. -/
theorem contains_of_head (hf : f ∈ (Assembly.run maxBytes maxTextBytes blocks).flushes)
    {marker : String} (hmarker : Marker marker)
    (hhead : marker.toList <:+: takeBytes f.budget f.text.toList) :
    ContainsMarker (toolResultContent blocks maxBytes maxTextBytes) := by
  by_cases h : f.Marked
  · exact contains_of_announced hf h
  · refine contains_of_kept hf hmarker ?_
    rw [truncateMiddle_unmarked h, String.toList_ofList]
    exact hhead

/-- A note of which nothing is lost stands in the bytes that are kept. -/
theorem note_in_head (hnote : HasNote f.text f.origins)
    (hbehind : ∀ origin ∈ f.origins.drop (takeBytes f.budget f.text.toList).length,
      origin = .other) :
    ∃ marker, Marker marker ∧ marker.toList <:+: takeBytes f.budget f.text.toList := by
  obtain ⟨before, after, data, mimeType, originsBefore, originsAfter, htext, horigins,
    hlength⟩ := hnote
  have hmarker : Marker (imageNote data mimeType) := .image data mimeType
  have hpos := List.length_pos_iff.mpr (marker_ne_nil hmarker)
  generalize imageNote data mimeType = note at *
  have hroom : before.length + note.toList.length ≤ (takeBytes f.budget f.text.toList).length := by
    by_contra hnot
    have hlast : f.origins[before.length + note.toList.length - 1]? = some .imageNote := by
      rw [horigins, List.append_assoc, List.getElem?_append_right (by omega),
        List.getElem?_append_left (by rw [List.length_replicate]; omega),
        List.getElem?_replicate_of_lt (by omega)]
    have hmem : Origin.imageNote ∈ f.origins.drop (takeBytes f.budget f.text.toList).length := by
      refine List.mem_of_getElem? (i := before.length + note.toList.length - 1 -
        (takeBytes f.budget f.text.toList).length) ?_
      rw [List.getElem?_drop, ← hlast]
      congr 1
      omega
    cases hbehind _ hmem
  have hprefix : before ++ note.toList <+: takeBytes f.budget f.text.toList := by
    refine List.prefix_of_prefix_length_le ⟨after, htext.symm⟩
      (Utf8Offsets.takeBytes_prefix f.budget _) ?_
    rw [List.length_append]
    exact hroom
  exact ⟨note, hmarker, (List.infix_append' before note.toList []).trans (by
    rw [List.append_nil]
    exact hprefix.isInfix)⟩

theorem contains_marker_of_announced (h : Announced blocks maxBytes maxTextBytes)
    (hout : LeavesOut blocks maxBytes maxTextBytes) :
    ContainsMarker (toolResultContent blocks maxBytes maxTextBytes) := by
  rcases h with ⟨f, hf, hmarked⟩ | ⟨f, hf, marker, hmarker, hhead⟩ | hquiet
  · exact contains_of_announced hf hmarked
  · exact contains_of_head hf hmarker hhead
  · -- nothing that matters is behind a budget without a marker
    have hbehind : ∀ f ∈ (Assembly.run maxBytes maxTextBytes blocks).flushes, ¬f.Marked →
        ∀ origin ∈ f.origins.drop (takeBytes f.budget f.text.toList).length, origin = .other := by
      intro f hf hmarked origin hmem
      by_cases hbudget : f.budget ≤ elisionMarkerAllowance
      · exact hquiet f hf hbudget origin hmem
      · have hwhole : f.text.utf8ByteSize ≤ f.budget := Nat.not_lt.mp fun hlt =>
          hmarked ⟨hlt, Nat.not_le.mp hbudget⟩
        rw [Utf8Offsets.utf8ByteSize_eq] at hwhole
        rw [Utf8Offsets.takeBytes_of_size_le hwhole,
          ← (run_traced blocks maxBytes maxTextBytes).aligned f hf, List.drop_length] at hmem
        cases hmem
    rcases hout with himages | ⟨f, hf, hlost⟩
    · rcases run_images blocks maxBytes maxTextBytes with ⟨hsame, -⟩ | ⟨-, f, hf, hnote⟩
      · exact absurd hsame himages
      · by_cases hmarked : f.Marked
        · exact contains_of_announced hf hmarked
        · obtain ⟨marker, hmarker, hhead⟩ := note_in_head hnote (hbehind f hf hmarked)
          exact contains_of_head hf hmarker hhead
    · by_cases hmarked : f.Marked
      · exact contains_of_announced hf hmarked
      · cases hbehind f hf hmarked _ (lost_unmarked hmarked hlost)

theorem announced_of_contains_marker
    (h : LeavesOut blocks maxBytes maxTextBytes →
      ContainsMarker (toolResultContent blocks maxBytes maxTextBytes)) :
    Announced blocks maxBytes maxTextBytes := by
  by_cases hout : LeavesOut blocks maxBytes maxTextBytes
  · obtain ⟨text, hmem, marker, hmarker, hmarks⟩ := h hout
    obtain ⟨f, hf, rfl⟩ := (run_traced blocks maxBytes maxTextBytes).flushed text hmem
    by_cases hmarked : f.Marked
    · exact .inl ⟨f, hf, hmarked⟩
    · rw [truncateMiddle_unmarked hmarked, String.toList_ofList] at hmarks
      exact .inr (.inl ⟨f, hf, marker, hmarker, hmarks⟩)
  · by_cases hmarked : ∃ f ∈ (Assembly.run maxBytes maxTextBytes blocks).flushes, f.Marked
    · exact .inl hmarked
    · rw [LeavesOut, not_or, not_not] at hout
      obtain ⟨hsame, htext⟩ := hout
      obtain ⟨-, hnotes⟩ | ⟨hmissing, -⟩ := run_images blocks maxBytes maxTextBytes
      · refine .inr (.inr fun f hf hbudget origin hmem => ?_)
        cases origin with
        | other => rfl
        | imageNote => exact absurd (List.mem_of_mem_drop hmem) (hnotes f hf)
        | block =>
            have hunmarked : ¬f.Marked := fun h => hmarked ⟨f, hf, h⟩
            refine absurd ⟨f, hf, ?_⟩ htext
            rw [Flush.lost, Flush.headLen, Flush.tailLen, if_neg hunmarked, if_neg hunmarked,
              Nat.sub_zero, ← (run_traced blocks maxBytes maxTextBytes).aligned f hf,
              ← List.length_drop, List.take_length]
            exact hmem
      · exact absurd hsame hmissing

/-- Something that is left out is told exactly when no text is cut without a marker and loses what
matters, or some marker is kept anyway. -/
theorem leavesOut_told_iff (blocks : List RawContent) (maxBytes maxTextBytes : ℕ) :
    (LeavesOut blocks maxBytes maxTextBytes →
        ContainsMarker (toolResultContent blocks maxBytes maxTextBytes)) ↔
      Announced blocks maxBytes maxTextBytes :=
  ⟨announced_of_contains_marker, contains_marker_of_announced⟩

theorem bracket_mem_marker {marker : String} (h : Marker marker) : ']' ∈ marker.toList := by
  have hlast : ∀ first rest : String, ']' ∈ rest.toList → ']' ∈ (first ++ rest).toList := by
    intro first rest hmem
    rw [String.toList_append]
    exact List.mem_append_right _ hmem
  cases h with
  | elision elided total => exact hlast _ " bytes elided from tool result ...]" (by decide)
  | image data mimeType =>
      exact hlast _ " base64 bytes exceeds remaining tool-result budget]" (by decide)
  | audio data mimeType => exact hlast _ " bytes]" (by decide)
  | resource => decide

/-- One character more than the room for a marker. -/
def quietText : String := String.ofList (List.replicate 129 'a')

theorem quiet_flushes : (Assembly.run 1024 128 [.text quietText]).flushes =
    [⟨quietText, List.replicate 129 .block, 128⟩] := by
  decide +kernel

theorem quiet_not_announced : ¬Announced [.text quietText] 1024 128 := by
  have hhead : takeBytes 128 quietText.toList = List.replicate 128 'a' := by decide +kernel
  unfold Announced
  simp only [quiet_flushes, List.mem_singleton, exists_eq_left, forall_eq]
  rintro (hmarked | ⟨marker, hmarker, hmarks⟩ | hquiet)
  · exact Nat.lt_irrefl _ hmarked.2
  · rw [hhead] at hmarks
    exact absurd (List.eq_of_mem_replicate (hmarks.subset (bracket_mem_marker hmarker))) (by decide)
  · rw [hhead, List.length_replicate, List.drop_replicate] at hquiet
    cases hquiet le_rfl .block (by decide)

theorem quiet_cut_has_no_marker :
    ¬∀ (blocks : List RawContent) (maxBytes maxTextBytes : ℕ), 128 ≤ maxTextBytes →
      LeavesOut blocks maxBytes maxTextBytes →
      ContainsMarker (toolResultContent blocks maxBytes maxTextBytes) := fun h =>
  quiet_not_announced (announced_of_contains_marker (h [.text quietText] 1024 128 le_rfl))

end Announcing

end Buzz
