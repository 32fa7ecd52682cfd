import Buzz.PlainTextLayout

/-!
# Offsets and positions

Both maps go through the same segments, which lie one after the other in the text and in the
document. An offset that is not inside an emoji comes back from the document, and a caret comes back
into its block unless the block ends with a break or an emoji and is not the last.
-/

namespace Buzz.PlainText

section Shape

variable {segments first second : List Segment} {seg next : Segment} {low lowText high highText : ℤ}

def Segment.pmFrom : Segment → ℤ
  | .text pmFrom _ _ _ => pmFrom
  | .hardBreak pmFrom _ _ _ => pmFrom
  | .atom pmFrom _ _ _ => pmFrom
  | .emptyBlockContent pmAt _ => pmAt
  | .blockBoundary pmAt _ _ => pmAt

def Segment.textFrom : Segment → ℤ
  | .text _ _ textFrom _ => textFrom
  | .hardBreak _ _ textFrom _ => textFrom
  | .atom _ _ textFrom _ => textFrom
  | .emptyBlockContent _ textAt => textAt
  | .blockBoundary _ textFrom _ => textFrom

def Segment.textTo : Segment → ℤ
  | .text _ _ _ textTo => textTo
  | .hardBreak _ _ _ textTo => textTo
  | .atom _ _ _ textTo => textTo
  | .emptyBlockContent _ textAt => textAt
  | .blockBoundary _ _ textTo => textTo

/-- The widths of a segment in the document and in the text. -/
def Segment.Wide : Segment → Prop
  | .text pmFrom pmTo textFrom textTo => pmFrom < pmTo ∧ pmTo - pmFrom = textTo - textFrom
  | .hardBreak pmFrom pmTo textFrom textTo => pmTo = pmFrom + 1 ∧ textTo = textFrom + 1
  | .atom pmFrom pmTo textFrom textTo => pmTo = pmFrom + 1 ∧ textFrom < textTo
  | .emptyBlockContent _ _ => True
  | .blockBoundary _ textFrom textTo => textTo = textFrom + 1

theorem Segment.Wide.pm_le (h : seg.Wide) : seg.pmFrom ≤ seg.pmTo := by
  cases seg with
  | text => exact h.1.le
  | hardBreak | atom => exact (Int.le_add_one le_rfl).trans h.1.ge
  | emptyBlockContent => exact le_rfl
  | blockBoundary => exact le_rfl

theorem Segment.Wide.text_le (h : seg.Wide) : seg.textFrom ≤ seg.textTo := by
  cases seg with
  | text pmFrom pmTo textFrom textTo =>
      obtain ⟨hlt, hsame⟩ := h
      dsimp only [Segment.textFrom, Segment.textTo]
      omega
  | hardBreak => exact (Int.le_add_one le_rfl).trans h.2.ge
  | atom => exact h.2.le
  | emptyBlockContent => exact le_rfl
  | blockBoundary => exact (Int.le_add_one le_rfl).trans (Eq.ge h)

/-- One segment lies before another. They meet in the document only if both have a width there. -/
structure Before (seg next : Segment) : Prop where
  pm_le : seg.pmTo ≤ next.pmFrom
  text_le : seg.textTo ≤ next.textFrom
  next_pm : next.pmFrom ≤ next.pmTo
  next_text : next.textFrom ≤ next.textTo
  meet : seg.pmTo = next.pmFrom →
    seg.textTo = next.textFrom ∧ seg.pmFrom < seg.pmTo ∧ next.pmFrom < next.pmTo

theorem Before.trans {third : Segment} (h : Before seg next) (hnext : Before next third) :
    Before seg third := by
  refine ⟨h.pm_le.trans (h.next_pm.trans hnext.pm_le), h.text_le.trans (h.next_text.trans
    hnext.text_le), hnext.next_pm, hnext.next_text, ?_⟩
  intro hmeet
  have hle := h.pm_le
  have hnextPm := h.next_pm
  have hnextLe := hnext.pm_le
  obtain ⟨-, -, hlt⟩ := h.meet (by omega)
  omega

/-- One segment follows another in the text. -/
structure Follows (seg next : Segment) : Prop extends Before seg next where
  text_eq : seg.textTo = next.textFrom

/-- Segments in a row, between two positions and two offsets. -/
structure Run (segments : List Segment) (pmFrom textFrom pmTo textTo : ℤ) : Prop where
  wide : ∀ seg ∈ segments, seg.Wide
  chain : segments.IsChain Follows
  head : ∃ seg, segments.head? = some seg ∧ seg.pmFrom = pmFrom ∧ seg.textFrom = textFrom
  last : ∃ seg, segments.getLast? = some seg ∧ seg.pmTo = pmTo ∧ seg.textTo = textTo

theorem Run.single (h : seg.Wide) : Run [seg] seg.pmFrom seg.textFrom seg.pmTo seg.textTo :=
  ⟨by simpa using h, .singleton seg, ⟨seg, rfl, rfl, rfl⟩, ⟨seg, rfl, rfl, rfl⟩⟩

theorem Run.append {pmMiddle textMiddle pmNext : ℤ}
    (hfirst : Run first low lowText pmMiddle textMiddle)
    (hsecond : Run second pmNext textMiddle high highText) (hlt : pmMiddle < pmNext) :
    Run (first ++ second) low lowText high highText := by
  obtain ⟨firstHead, hfirstHead, hpmFrom, htextFrom⟩ := hfirst.head
  obtain ⟨firstLast, hfirstLast, hpmMiddle, htextMiddle⟩ := hfirst.last
  obtain ⟨secondHead, hsecondHead, hpmNext, htextNext⟩ := hsecond.head
  obtain ⟨secondLast, hsecondLast, hpmTo, htextTo⟩ := hsecond.last
  have hwide := hsecond.wide secondHead (List.mem_of_head? hsecondHead)
  constructor
  · intro seg hseg
    rcases List.mem_append.mp hseg with hmem | hmem
    · exact hfirst.wide seg hmem
    · exact hsecond.wide seg hmem
  · rw [List.isChain_append]
    refine ⟨hfirst.chain, hsecond.chain, ?_⟩
    intro seg hseg next hnext
    obtain rfl := Option.some.inj (hfirstLast.symm.trans hseg)
    obtain rfl := Option.some.inj (hsecondHead.symm.trans hnext)
    have htext : firstLast.textTo = secondHead.textFrom := htextMiddle.trans htextNext.symm
    refine ⟨⟨by omega, htext.le, hwide.pm_le, hwide.text_le, fun hmeet => ?_⟩, htext⟩
    omega
  · exact ⟨firstHead, by rw [List.head?_append, hfirstHead]; rfl, hpmFrom, htextFrom⟩
  · exact ⟨secondLast, by rw [List.getLast?_append, hsecondLast]; rfl, hpmTo, htextTo⟩

theorem Run.pairwise (h : Run segments low lowText high highText) :
    segments.Pairwise Before := by
  have : IsTrans Segment Before := ⟨fun _ _ _ => Before.trans⟩
  exact List.isChain_iff_pairwise.mp (h.chain.imp fun _ _ hfollows => hfollows.toBefore)

end Shape

section Answers

variable {segments : List Segment} {seg next : Segment} {low lowText high highText pm offset : ℤ}

theorem textOffset?_eq_none_iff (hwide : seg.Wide) : seg.textOffset? pm = none ↔ seg.pmTo < pm := by
  have hle := hwide.pm_le
  cases seg <;> simp only [Segment.textOffset?, Segment.pmTo, Segment.pmFrom] at hle ⊢ <;>
    split_ifs <;> simp <;> omega

theorem textOffset?_pmTo (hwide : seg.Wide) (hlt : seg.pmFrom < seg.pmTo) :
    seg.textOffset? seg.pmTo = some seg.textTo := by
  cases seg with
  | text pmFrom pmTo textFrom textTo =>
      obtain ⟨-, hsame⟩ := hwide
      dsimp only [Segment.pmFrom, Segment.pmTo] at hlt
      dsimp only [Segment.textOffset?, Segment.pmTo, Segment.textTo]
      rw [if_pos le_rfl, if_neg (not_le.mpr hlt), hsame, add_sub_cancel]
  | hardBreak pmFrom pmTo textFrom textTo | atom pmFrom pmTo textFrom textTo =>
      dsimp only [Segment.pmFrom, Segment.pmTo] at hlt
      dsimp only [Segment.textOffset?, Segment.pmTo, Segment.textTo]
      rw [if_neg (not_le.mpr hlt), if_pos le_rfl]
  | emptyBlockContent | blockBoundary => exact absurd hlt (lt_irrefl _)

theorem textOffset?_pmFrom (hwide : seg.Wide) : seg.textOffset? seg.pmFrom = some seg.textFrom := by
  have hle := hwide.pm_le
  cases seg with
  | text => exact (if_pos hle).trans (if_pos le_rfl)
  | hardBreak | atom | emptyBlockContent | blockBoundary => exact if_pos le_rfl

theorem textOffset?_mem (hwide : seg.Wide) (h : seg.textOffset? pm = some offset) :
    seg.textFrom ≤ offset ∧ offset ≤ seg.textTo := by
  cases seg <;>
    simp only [Segment.textOffset?, Segment.Wide, Segment.textFrom, Segment.textTo] at h hwide ⊢ <;>
    split_ifs at h <;> simp only [Option.some.injEq] at h <;> omega

theorem textOffset?_mono {pmNext next : ℤ} (hwide : seg.Wide) (hle : pm ≤ pmNext)
    (h : seg.textOffset? pm = some offset) (hnext : seg.textOffset? pmNext = some next) :
    offset ≤ next := by
  cases seg <;>
    simp only [Segment.textOffset?, Segment.Wide] at h hnext hwide <;>
    split_ifs at h hnext <;> simp only [Option.some.injEq] at h hnext <;> omega

theorem steady_textOffset? (hwide : seg.Wide) : Piecewise.Steady Segment.textOffset?
    (fun _ _ => True) Segment.textFrom Segment.textTo seg where
  up x y hxy hx := by
    rw [textOffset?_eq_none_iff hwide] at hx ⊢
    omega
  mono _ _ _ _ hxy hu hv := textOffset?_mono hwide hxy hu hv
  reached_up _ _ _ _ := trivial
  low_le _ _ _ hu := (textOffset?_mem hwide hu).1
  le_high _ _ hu := (textOffset?_mem hwide hu).2
  low_le_high := hwide.text_le

theorem textTo_le_of_position? (hwide : seg.Wide) (h : seg.position? offset = none) :
    seg.textTo ≤ offset := by
  cases seg <;> simp only [Segment.position?, Segment.textTo] at h ⊢ <;>
    split_ifs at h <;> omega

theorem position?_of_lt (h : seg.textTo < offset) : seg.position? offset = none := by
  cases seg with
  | text => exact if_neg (not_le.mpr h)
  | hardBreak | atom => exact if_neg (not_lt.mpr h.le)
  | emptyBlockContent => exact if_neg (not_le.mpr h)
  | blockBoundary => exact if_neg (not_lt.mpr h.le)

theorem position?_mem {pm : ℤ} (hwide : seg.Wide) (h : seg.position? offset = some pm) :
    (seg.textFrom ≤ offset → seg.pmFrom ≤ pm) ∧ pm ≤ seg.pmTo := by
  cases seg <;>
    simp only [Segment.position?, Segment.Wide, Segment.textFrom, Segment.pmFrom,
      Segment.pmTo] at h hwide ⊢ <;>
    split_ifs at h <;> simp only [Option.some.injEq] at h <;> omega

theorem position?_mono {offsetNext pmNext : ℤ} (hle : offset ≤ offsetNext)
    (h : seg.position? offset = some pm) (hnext : seg.position? offsetNext = some pmNext) :
    pm ≤ pmNext := by
  cases seg <;>
    simp only [Segment.position?] at h hnext <;>
    split_ifs at h hnext <;> simp only [Option.some.injEq] at h hnext <;> omega

theorem position?_up {offsetNext : ℤ} (hle : offset ≤ offsetNext)
    (h : seg.position? offset = none) : seg.position? offsetNext = none := by
  cases seg <;> simp only [Segment.position?] at h ⊢ <;> split_ifs at h ⊢ <;> first | rfl | omega

theorem steady_position? (hwide : seg.Wide) : Piecewise.Steady Segment.position?
    (fun seg offset => seg.textFrom ≤ offset) Segment.pmFrom Segment.pmTo seg where
  up _ _ hxy hx := position?_up hxy hx
  mono _ _ _ _ hxy hu hv := position?_mono hxy hu hv
  reached_up _ _ hxy hx := hx.trans hxy
  low_le _ _ hx hu := (position?_mem hwide hu).1 hx
  le_high _ _ hu := (position?_mem hwide hu).2
  low_le_high := hwide.pm_le

theorem Run.stacked_textOffset? (h : Run segments low lowText high highText) :
    Piecewise.Stacked Segment.textOffset? (fun _ _ => True) Segment.textFrom Segment.textTo
      segments :=
  ⟨fun seg hseg => steady_textOffset? (h.wide seg hseg),
    h.chain.imp fun _ _ hfollows => ⟨fun _ _ => trivial, hfollows.text_le⟩⟩

theorem Run.stacked_position? (h : Run segments low lowText high highText) :
    Piecewise.Stacked Segment.position? (fun seg offset => seg.textFrom ≤ offset) Segment.pmFrom
      Segment.pmTo segments := by
  refine ⟨fun seg hseg => steady_position? (h.wide seg hseg), ?_⟩
  rw [List.isChain_iff_getElem]
  intro i hi
  have hfollows := List.isChain_iff_getElem.mp h.chain i hi
  have hwide := h.wide segments[i] (List.getElem_mem _)
  exact ⟨fun offset hnone => hfollows.text_eq.ge.trans (textTo_le_of_position? hwide hnone),
    hfollows.pm_le⟩

/-- The offset is strictly inside the text of an emoji. -/
def Segment.Inside : Segment → ℤ → Prop
  | .atom _ _ textFrom textTo, offset => textFrom < offset ∧ offset < textTo
  | _, _ => False

/-- An offset that is not inside an emoji comes back through its segment, and it is the first of the
segment if the position is. -/
theorem textOffset?_of_position? (hwide : seg.Wide) (hfrom : seg.textFrom ≤ offset)
    (hinside : ¬seg.Inside offset) (h : seg.position? offset = some pm) :
    seg.textOffset? pm = some offset ∧ (pm = seg.pmFrom → offset = seg.textFrom) := by
  cases seg <;>
    simp only [Segment.position?, Segment.textOffset?, Segment.Wide, Segment.textFrom,
      Segment.pmFrom, Segment.Inside] at h hwide hfrom hinside ⊢ <;>
    split_ifs at h ⊢ <;> simp only [Option.some.injEq] at h ⊢ <;> omega

end Answers

section Runs

variable {segments : List Segment} {seg : Segment} {low high offset pos limit : ℤ}
  {block : LeafBlock} {blocks : List LeafBlock}

theorem segment_wide (node : Inline) (pos offset : ℤ) : (node.segment pos offset).Wide := by
  cases node with
  | text node =>
      have hlength := List.length_pos_of_ne_nil node.nonempty
      simp only [Inline.segment, Segment.Wide]
      omega
  | hardBreak => exact ⟨rfl, rfl⟩
  | customEmoji shortcode =>
      have hlength : 0 < (projected shortcode).length := Nat.succ_pos _
      exact ⟨rfl, by omega⟩

theorem segment_pmFrom (node : Inline) : (node.segment pos offset).pmFrom = pos := by
  cases node <;> rfl

theorem segment_textFrom (node : Inline) : (node.segment pos offset).textFrom = offset := by
  cases node <;> rfl

theorem segment_pmTo (node : Inline) : (node.segment pos offset).pmTo = pos + node.nodeSize := by
  cases node <;> rfl

theorem segment_textTo (node : Inline) :
    (node.segment pos offset).textTo = offset + node.units.length := by
  cases node <;> rfl

theorem segment_lt (node : Inline) :
    (node.segment pos offset).pmFrom < (node.segment pos offset).pmTo := by
  have hsize := nodeSize_pos node
  rw [segment_pmFrom, segment_pmTo]
  omega

/-- The segment is no boundary. -/
def Segment.IsContent (seg : Segment) : Prop := seg.contentStart? = some seg.pmFrom

theorem segment_content (node : Inline) : (node.segment pos offset).IsContent := by
  cases node <;> rfl

theorem inlineSegments_content (nodes : List Inline) :
    ∀ seg ∈ inlineSegments nodes pos offset, seg.IsContent := by
  induction nodes generalizing pos offset with
  | nil => exact fun _ h => absurd h List.not_mem_nil
  | cons node nodes ih => exact List.forall_mem_cons.mpr ⟨segment_content node, ih⟩

/-- The segments of inline nodes touch each other. -/
theorem run_inlineSegments (node : Inline) (nodes : List Inline) (pos offset : ℤ) :
    Run (inlineSegments (node :: nodes) pos offset) pos offset
      (pos + contentSize (node :: nodes)) (offset + textLength (node :: nodes)) := by
  induction nodes generalizing node pos offset with
  | nil =>
      have hrun := Run.single (segment_wide node pos offset)
      rw [segment_pmFrom, segment_textFrom, segment_pmTo, segment_textTo] at hrun
      have hsize : contentSize [node] = node.nodeSize := add_zero _
      have hlength : textLength [node] = node.units.length := by
        rw [textLength, List.flatMap_singleton]
      rw [hsize, hlength]
      exact hrun
  | cons next nodes ih =>
      have hrest := ih next (pos + node.nodeSize) (offset + node.units.length)
      obtain ⟨last, hlast, hpm, htext⟩ := hrest.last
      rw [contentSize_cons, textLength_cons, ← add_assoc, ← add_assoc]
      constructor
      · exact List.forall_mem_cons.mpr ⟨segment_wide node pos offset, hrest.wide⟩
      · rw [inlineSegments, inlineSegments, List.isChain_cons_cons]
        refine ⟨⟨⟨?_, ?_, ?_, ?_, ?_⟩, ?_⟩, hrest.chain⟩
        · rw [segment_pmTo, segment_pmFrom]
        · rw [segment_textTo, segment_textFrom]
        · exact (segment_lt next).le
        · exact (segment_wide next _ _).text_le
        · intro _
          rw [segment_textTo, segment_textFrom]
          exact ⟨rfl, segment_lt node, segment_lt next⟩
        · rw [segment_textTo, segment_textFrom]
      · exact ⟨_, rfl, segment_pmFrom node, segment_textFrom node⟩
      · refine ⟨last, ?_, hpm, htext⟩
        rw [inlineSegments, List.getLast?_cons, hlast]
        rfl

theorem content_segments : ∀ seg ∈ block.segments offset, seg.IsContent := by
  unfold LeafBlock.segments
  split_ifs
  · intro seg hseg
    rw [List.mem_singleton.mp hseg]
    rfl
  · exact inlineSegments_content block.content

theorem run_segments (block : LeafBlock) (offset : ℤ) :
    Run (block.segments offset) block.start offset
    block.stop (offset + textLength block.content) := by
  unfold LeafBlock.segments
  split_ifs with hempty
  · have hnil := (contentSize_eq_zero_iff block.content).mp hempty
    have hrun := Run.single (show (Segment.emptyBlockContent block.start offset).Wide from trivial)
    have hstop : block.stop = block.start := by
      rw [LeafBlock.stop, hempty, add_zero]
      rfl
    have hoffset : offset + textLength block.content = offset := by
      rw [hnil]
      exact add_zero offset
    rw [hstop, hoffset]
    exact hrun
  · cases hcontent : block.content with
    | nil => exact absurd ((contentSize_eq_zero_iff block.content).mpr hcontent) hempty
    | cons node nodes =>
        have hstop : block.stop = block.start + contentSize (node :: nodes) := by
          rw [← hcontent]
          rfl
        rw [hstop]
        exact run_inlineSegments node nodes block.start offset

theorem Placed.of_cons (h : Placed (block :: blocks) low limit) :
    Placed blocks (block.stop + 1) limit := by
  refine ⟨fun other hother => ?_, fun other hother =>
    h.lt_high other (List.mem_cons_of_mem _ hother), (List.pairwise_cons.mp h.apart).2⟩
  have hlt := (List.pairwise_cons.mp h.apart).1 other hother
  omega

/-- The segments from a boundary on. -/
theorem run_separated (block : LeafBlock) (offset : ℤ) :
    Run (.blockBoundary block.pos (offset - 1) offset :: block.segments offset) block.pos
      (offset - 1) block.stop (offset + textLength block.content) := by
  have hwide : (Segment.blockBoundary block.pos (offset - 1) offset).Wide := by
    simp only [Segment.Wide]
    omega
  exact (Run.single hwide).append (run_segments block offset) (Int.lt_succ block.pos)

/-- The segments of leaf blocks that come after another one. -/
theorem run_laid (offset : ℤ) (h : Placed (block :: blocks) low limit) : ∃ high last,
    Run (laid (block :: blocks) true offset) block.pos (offset - 1) high
        (offset + offsetAfter (block :: blocks) - 1) ∧
      high < limit ∧ (laid (block :: blocks) true offset).getLast? = some last ∧
      last.IsContent := by
  induction blocks generalizing block low offset with
  | nil =>
      have hrun := run_separated block offset
      obtain ⟨last, hlast, -, -⟩ := (run_segments block offset).last
      have hoffset : offset + offsetAfter [block] - 1 = offset + textLength block.content := by
        rw [offsetAfter_cons]
        exact (congrArg (offset + · - 1) (add_zero _)).trans (by omega)
      have hlaid : laid [block] true offset =
          .blockBoundary block.pos (offset - 1) offset :: block.segments offset := by
        rw [laid, laid, List.append_nil]
        rfl
      rw [hoffset, hlaid]
      refine ⟨block.stop, last, hrun, h.lt_high block List.mem_cons_self, ?_,
        content_segments last (List.mem_of_getLast? hlast)⟩
      rw [List.getLast?_cons, hlast]
      rfl
  | cons next blocks ih =>
      obtain ⟨high, last, hrun, hhigh, hlast, hcontent⟩ :=
        ih (offset + textLength block.content + 1) h.of_cons
      have hoffset : offset + textLength block.content + 1 + offsetAfter (next :: blocks) - 1 =
          offset + offsetAfter (block :: next :: blocks) - 1 := by
        rw [offsetAfter_cons block]
        omega
      have hlaid : laid (block :: next :: blocks) true offset =
          (.blockBoundary block.pos (offset - 1) offset :: block.segments offset) ++
            laid (next :: blocks) true (offset + textLength block.content + 1) := rfl
      have hapart : block.stop < next.pos :=
        (List.pairwise_cons.mp h.apart).1 next List.mem_cons_self
      rw [hoffset, add_sub_cancel_right] at hrun
      rw [hlaid]
      refine ⟨high, last, (run_separated block offset).append hrun hapart, hhigh, ?_, hcontent⟩
      rw [List.getLast?_append, hlast]
      rfl

/-- The segments of a document with leaf blocks. -/
theorem run_doc (h : Placed (block :: blocks) low limit) : ∃ high last,
    Run (laid (block :: blocks) false 0) block.start 0 high
        (offsetAfter (block :: blocks) - 1) ∧
      high < limit ∧ (laid (block :: blocks) false 0).getLast? = some last ∧ last.IsContent := by
  have hrun := run_segments block 0
  obtain ⟨last, hlast, -, -⟩ := hrun.last
  rw [zero_add] at hrun
  have hlaid : laid (block :: blocks) false 0 =
      block.segments 0 ++ laid blocks true (textLength block.content + 1) := by
    rw [laid, zero_add]
    rfl
  rw [hlaid]
  cases blocks with
  | nil =>
      have hoffset : offsetAfter [block] - 1 = textLength block.content := by
        rw [offsetAfter_cons]
        exact (congrArg (· - 1) (add_zero _)).trans (by omega)
      rw [laid, List.append_nil, hoffset]
      exact ⟨block.stop, last, hrun, h.lt_high block List.mem_cons_self, hlast,
        content_segments last (List.mem_of_getLast? hlast)⟩
  | cons next blocks =>
      obtain ⟨high, last, hrest, hhigh, hlast, hcontent⟩ :=
        run_laid (textLength block.content + 1) h.of_cons
      have hapart : block.stop < next.pos :=
        (List.pairwise_cons.mp h.apart).1 next List.mem_cons_self
      rw [add_sub_cancel_right] at hrest
      rw [offsetAfter_cons block]
      refine ⟨high, last, hrun.append hrest hapart, hhigh, ?_, hcontent⟩
      rw [List.getLast?_append, hlast]
      rfl

end Runs

end Buzz.PlainText
