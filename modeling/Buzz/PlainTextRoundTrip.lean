import Buzz.PlainTextOffsets

/-!
# The round trip of the editor

Offsets come back from the document, except inside an emoji. Carets come back into their blocks,
except at the break or the emoji that ends a block with another block after it.
-/

namespace Buzz.PlainText

section Runs

variable {segments : List Segment} {seg last : Segment}
  {low lowText high highText length size pm offset : ℤ}

theorem Run.low_le (h : Run segments low lowText high highText) :
    ∀ seg ∈ segments, lowText ≤ seg.textFrom := by
  obtain ⟨head, hhead, -, htext⟩ := h.head
  intro seg hseg
  cases segments with
  | nil => exact absurd hseg List.not_mem_nil
  | cons first rest =>
      obtain rfl := Option.some.inj hhead
      rcases List.mem_cons.mp hseg with rfl | hmem
      · exact htext.ge
      · have hbefore := (List.pairwise_cons.mp h.pairwise).1 seg hmem
        have hwide := (h.wide first List.mem_cons_self).text_le
        exact htext.ge.trans (hwide.trans hbefore.text_le)

theorem Run.le_high (h : Run segments low lowText high highText) :
    ∀ seg ∈ segments, seg.pmTo ≤ high ∧ seg.textTo ≤ highText := by
  obtain ⟨last, hlast, rfl, rfl⟩ := h.last
  obtain ⟨init, rfl⟩ := List.getLast?_eq_some_iff.mp hlast
  intro seg hseg
  rcases List.mem_append.mp hseg with hmem | hmem
  · have hbefore := (List.pairwise_append.mp h.pairwise).2.2 seg hmem last
      (List.mem_singleton_self _)
    exact ⟨hbefore.pm_le.trans hbefore.next_pm, hbefore.text_le.trans hbefore.next_text⟩
  · obtain rfl := List.mem_singleton.mp hmem
    exact ⟨le_rfl, le_rfl⟩

theorem Run.exists_cons (h : Run segments low lowText high highText) :
    ∃ first rest, segments = first :: rest ∧ first.pmFrom = low ∧ first.textFrom = lowText := by
  obtain ⟨first, hfirst, hpm, htext⟩ := h.head
  cases segments with
  | nil => cases hfirst
  | cons other rest =>
      obtain rfl := Option.some.inj hfirst
      exact ⟨other, rest, rfl, hpm, htext⟩

theorem Run.le_textOffset (h : Run segments low lowText high highText) (htail : highText ≤ length) :
    lowText ≤ Piecewise.first Segment.textOffset? segments length pm := by
  obtain ⟨first, rest, rfl, -, rfl⟩ := h.exists_cons
  exact Piecewise.low_le_first h.stacked_textOffset?
    (fun seg hseg => (h.le_high seg hseg).2.trans htail) trivial

theorem Run.textOffset_le (h : Run segments low lowText high highText) (htail : highText ≤ length) :
    Piecewise.first Segment.textOffset? segments length pm ≤ length :=
  Piecewise.first_le h.stacked_textOffset?.steady fun seg hseg => (h.le_high seg hseg).2.trans htail

theorem Run.le_position (h : Run segments low lowText high highText) (hoffset : lowText ≤ offset) :
    low ≤ Piecewise.first Segment.position? segments high offset := by
  obtain ⟨first, rest, rfl, rfl, rfl⟩ := h.exists_cons
  exact Piecewise.low_le_first h.stacked_position? (fun seg hseg => (h.le_high seg hseg).1) hoffset

theorem Run.position_le (h : Run segments low lowText high highText) :
    Piecewise.first Segment.position? segments high offset ≤ high :=
  Piecewise.first_le h.stacked_position?.steady fun seg hseg => (h.le_high seg hseg).1

end Runs

section Maps

variable {segments : List Segment} {seg : Segment} {low high length size pm offset : ℤ}

/-- The segments of a document with leaf blocks. -/
structure Whole (segments : List Segment) (low high length : ℤ) : Prop
    extends Run segments low 0 high length where
  one_le : 1 ≤ low
  head_content : ∀ seg, segments.head? = some seg → seg.IsContent
  last_content : ∀ seg, segments.getLast? = some seg → seg.IsContent

theorem Whole.position_start (h : Whole segments low high length) (hoffset : offset ≤ 0) :
    mapTextOffsetToPM segments size offset = low := by
  obtain ⟨first, rest, rfl, rfl, -⟩ := h.exists_cons
  have hcontent : first.contentStart? = some first.pmFrom := h.head_content first rfl
  rw [mapTextOffsetToPM, if_pos hoffset, List.findSome?_cons, hcontent]
  rfl

theorem Whole.position_eq (h : Whole segments low high length) (hoffset : 0 < offset) :
    mapTextOffsetToPM segments size offset =
      Piecewise.first Segment.position? segments high offset := by
  obtain ⟨last, hlast, rfl, -⟩ := h.last
  rw [mapTextOffsetToPM, if_neg (not_le.mpr hoffset), hlast]
  rfl

theorem Whole.textOffset_eq (h : Whole segments low high length) (hpm : low ≤ pm) :
    mapPMToTextOffset segments length pm =
      Piecewise.first Segment.textOffset? segments length pm := by
  have hone := h.one_le
  rw [mapPMToTextOffset, if_neg (by omega)]

theorem Whole.textOffset_bounds (h : Whole segments low high length) :
    0 ≤ mapPMToTextOffset segments length pm ∧ mapPMToTextOffset segments length pm ≤ length := by
  have hlow := @Run.le_textOffset _ _ _ _ _ length pm h.toRun le_rfl
  have hhigh := @Run.textOffset_le _ _ _ _ _ length pm h.toRun le_rfl
  unfold mapPMToTextOffset
  split_ifs
  · exact ⟨le_rfl, hlow.trans hhigh⟩
  · exact ⟨hlow, hhigh⟩

theorem Whole.low_le_high (h : Whole segments low high length) : low ≤ high := by
  obtain ⟨first, rest, rfl, rfl, -⟩ := h.exists_cons
  exact (h.wide first List.mem_cons_self).pm_le.trans (h.le_high first List.mem_cons_self).1

theorem Whole.position_bounds (h : Whole segments low high length) :
    low ≤ mapTextOffsetToPM segments size offset ∧
      mapTextOffsetToPM segments size offset ≤ high := by
  rcases le_or_gt offset 0 with hoffset | hoffset
  · rw [h.position_start hoffset]
    exact ⟨le_rfl, h.low_le_high⟩
  · rw [h.position_eq hoffset]
    exact ⟨h.le_position hoffset.le, h.position_le⟩

theorem Whole.textOffset_mono (h : Whole segments low high length) :
    Monotone (mapPMToTextOffset segments length) := by
  intro pm next hle
  by_cases hpm : pm ≤ 0
  · rw [mapPMToTextOffset, if_pos hpm]
    exact h.textOffset_bounds.1
  · rw [mapPMToTextOffset, mapPMToTextOffset, if_neg hpm, if_neg (by omega)]
    exact Piecewise.first_mono h.stacked_textOffset? (fun seg hseg => (h.le_high seg hseg).2)
      (fun _ _ => trivial) hle

theorem Whole.position_mono (h : Whole segments low high length) :
    Monotone (mapTextOffsetToPM segments size) := by
  intro offset next hle
  rcases le_or_gt offset 0 with hoffset | hoffset
  · rw [h.position_start hoffset]
    exact h.position_bounds.1
  · rw [h.position_eq hoffset, h.position_eq (hoffset.trans_le hle)]
    refine Piecewise.first_mono h.stacked_position? (fun seg hseg => (h.le_high seg hseg).1) ?_ hle
    intro first hfirst
    obtain ⟨head, hhead, -, htext⟩ := h.head
    obtain rfl := Option.some.inj (hhead.symm.trans hfirst)
    exact htext.le.trans hoffset.le

/-- A segment whose last offset it leaves to the next one has a width in the document. -/
theorem lt_of_position?_textTo (hwide : seg.Wide) (hcontent : seg.IsContent)
    (h : seg.position? seg.textTo = none) : seg.pmFrom < seg.pmTo := by
  cases seg with
  | text => exact hwide.1
  | hardBreak | atom => exact (Int.lt_succ _).trans_eq hwide.1.symm
  | emptyBlockContent pmAt textAt =>
      rw [Segment.position?, Segment.textTo, if_pos le_rfl] at h
      cases h
  | blockBoundary => cases hcontent

theorem Whole.round_trip (h : Whole segments low high length) (hpos : 0 ≤ offset)
    (hlength : offset ≤ length) (hinside : ∀ seg ∈ segments, ¬seg.Inside offset) :
    mapPMToTextOffset segments length (mapTextOffsetToPM segments size offset) = offset := by
  rcases le_or_gt offset 0 with hoffset | hoffset
  · obtain ⟨first, rest, rfl, rfl, htext⟩ := h.exists_cons
    rw [h.position_start hoffset, h.textOffset_eq le_rfl,
      Piecewise.first_cons_of_some (textOffset?_pmFrom (h.wide first List.mem_cons_self)), htext]
    omega
  rw [h.textOffset_eq h.position_bounds.1, h.position_eq hoffset]
  rcases Piecewise.first_cases Segment.position? segments high offset with
    ⟨before, seg, after, pm, rfl, hbefore, hpm, hfirst⟩ | ⟨hnone, hfirst⟩
  · have hmem : seg ∈ before ++ seg :: after := List.mem_append_right _ List.mem_cons_self
    have hwide := h.wide seg hmem
    have hfrom : seg.textFrom ≤ offset := by
      refine h.stacked_position?.reaches ?_ hbefore
      intro first hfirst
      obtain ⟨head, hhead, -, htext⟩ := h.head
      obtain rfl := Option.some.inj (hhead.symm.trans hfirst)
      exact htext.le.trans hoffset.le
    obtain ⟨hback, hstart⟩ := textOffset?_of_position? hwide hfrom (hinside seg hmem) hpm
    rw [hfirst]
    refine Piecewise.first_of_agree ?_ hback
    intro other hother
    have hotherWide := h.wide other (List.mem_append_left _ hother)
    have hapart := (List.pairwise_append.mp h.pairwise).2.2 other hother seg List.mem_cons_self
    have hlow := (position?_mem hwide hpm).1 hfrom
    have hle := hapart.pm_le
    by_cases hmeet : other.pmTo = pm
    · obtain ⟨htext, hlt, -⟩ := hapart.meet (by omega)
      rw [hstart (by omega), ← htext, ← hmeet]
      exact Or.inr (textOffset?_pmTo hotherWide hlt)
    · exact Or.inl ((textOffset?_eq_none_iff hotherWide).mpr (by omega))
  · obtain ⟨last, hlast, hhigh, htext⟩ := h.last
    obtain ⟨init, rfl⟩ := List.getLast?_eq_some_iff.mp hlast
    have hmem : last ∈ init ++ [last] := List.mem_append_right _ (List.mem_singleton_self _)
    have hwide := h.wide last hmem
    have hend := textTo_le_of_position? hwide (hnone last hmem)
    have hsame : offset = last.textTo := by omega
    have hlt := lt_of_position?_textTo hwide (h.last_content last hlast) (hsame ▸ hnone last hmem)
    rw [hfirst, ← hhigh, hsame]
    refine Piecewise.first_of_agree ?_ (textOffset?_pmTo hwide hlt)
    intro other hother
    have hapart := (List.pairwise_append.mp h.pairwise).2.2 other hother last
      (List.mem_singleton_self _)
    have hle := hapart.pm_le
    exact Or.inl ((textOffset?_eq_none_iff (h.wide other (List.mem_append_left _ hother))).mpr
      (by omega))

end Maps

section Emoji

variable {block : LeafBlock} {blocks : List LeafBlock} {seg : Segment} {pos offset : ℤ}

/-- The offset is strictly inside the shortcode of an emoji. -/
def InsideEmoji (doc : List Block) (offset : ℤ) : Prop :=
  ∃ earlier block later nodes shortcode rest,
    leafBlocks doc = earlier ++ block :: later ∧
    block.content = nodes ++ .customEmoji shortcode :: rest ∧
    offsetAfter earlier + textLength nodes < offset ∧
    offset < offsetAfter earlier + textLength nodes + (projected shortcode).length

theorem inside_inlineSegments (content : List Inline) (origin : ℤ) :
    ∀ seg ∈ inlineSegments content pos origin, seg.Inside offset →
      ∃ nodes shortcode rest, content = nodes ++ .customEmoji shortcode :: rest ∧
        origin + textLength nodes < offset ∧
        offset < origin + textLength nodes + (projected shortcode).length := by
  induction content generalizing pos origin with
  | nil => exact fun _ h => absurd h List.not_mem_nil
  | cons node content ih =>
      rw [inlineSegments, List.forall_mem_cons]
      constructor
      · intro hinside
        cases node with
        | text node | hardBreak => exact hinside.elim
        | customEmoji shortcode =>
            have hzero : origin + textLength [] = origin := add_zero origin
            exact ⟨[], shortcode, content, rfl, hzero.symm ▸ hinside.1, hzero.symm ▸ hinside.2⟩
      · intro seg hseg hinside
        obtain ⟨nodes, shortcode, rest, rfl, hlow, hhigh⟩ := ih _ seg hseg hinside
        refine ⟨node :: nodes, shortcode, rest, rfl, ?_, ?_⟩
        · rw [textLength_cons]
          omega
        · rw [textLength_cons]
          omega

theorem inside_laid (blocks : List LeafBlock) (separated : Bool) (origin : ℤ) :
    ∀ seg ∈ laid blocks separated origin, seg.Inside offset →
      ∃ earlier block later nodes shortcode rest, blocks = earlier ++ block :: later ∧
        block.content = nodes ++ .customEmoji shortcode :: rest ∧
        origin + offsetAfter earlier + textLength nodes < offset ∧
        offset < origin + offsetAfter earlier + textLength nodes +
          (projected shortcode).length := by
  induction blocks generalizing separated origin with
  | nil => exact fun _ h => absurd h List.not_mem_nil
  | cons block blocks ih =>
      intro seg hseg hinside
      rw [laid, List.mem_append, List.mem_append] at hseg
      rcases hseg with hboundary | hcontent | hlater
      · split_ifs at hboundary
        · rw [List.mem_singleton.mp hboundary] at hinside
          exact hinside.elim
        · exact absurd hboundary List.not_mem_nil
      · unfold LeafBlock.segments at hcontent
        split_ifs at hcontent
        · rw [List.mem_singleton.mp hcontent] at hinside
          exact hinside.elim
        · obtain ⟨nodes, shortcode, rest, hblock, hlow, hhigh⟩ :=
            inside_inlineSegments block.content origin seg hcontent hinside
          have hzero : origin + offsetAfter [] = origin := add_zero origin
          refine ⟨[], block, blocks, nodes, shortcode, rest, rfl, hblock, ?_, ?_⟩
          · rwa [hzero]
          · rwa [hzero]
      · obtain ⟨earlier, found, later, nodes, shortcode, rest, rfl, hblock, hlow, hhigh⟩ :=
          ih true _ seg hlater hinside
        refine ⟨block :: earlier, found, later, nodes, shortcode, rest, rfl, hblock, ?_, ?_⟩
        · rw [offsetAfter_cons]
          omega
        · rw [offsetAfter_cons]
          omega

end Emoji

section Offsets

variable {doc : List Block} {block : LeafBlock} {blocks : List LeafBlock} {offset : ℤ}

theorem segments_doc (doc : List Block) : (walkOf doc).segments = laid (leafBlocks doc) false 0 :=
  (walked_doc doc).segments

theorem length_doc (h : leafBlocks doc = block :: blocks) :
    ((buildPlainTextProjection doc).text.length : ℤ) = offsetAfter (block :: blocks) - 1 := by
  have hwalked := walked_doc doc
  rw [h] at hwalked
  exact hwalked.length.trans hwalked.cursorText

/-- A leaf block puts a line feed before its text if it is not the first. -/
theorem text_leafBlock (walk : Walk) (block : LeafBlock) :
    (walk.leafBlock block.content block.pos).textParts.flatten =
        walk.textParts.flatten ++
          ((if walk.sawLeafBlock then [10] else []) ++ block.content.flatMap Inline.units) ∧
      (walk.leafBlock block.content block.pos).sawLeafBlock = true := by
  unfold Walk.leafBlock Walk.separate
  rw [inlines_eq]
  split_ifs <;> simp [List.flatMap_def]

theorem text_walk (blocks : List LeafBlock) {walk : Walk} (h : walk.sawLeafBlock = true) :
    (blocks.foldl (fun walk leaf => walk.leafBlock leaf.content leaf.pos) walk).textParts.flatten =
      List.intercalate [10] (walk.textParts.flatten ::
        blocks.map fun leaf => leaf.content.flatMap Inline.units) := by
  induction blocks generalizing walk with
  | nil => simp
  | cons leaf rest ih =>
      obtain ⟨htext, hsaw⟩ := text_leafBlock walk leaf
      rw [List.foldl_cons, ih hsaw, htext, h, if_pos rfl, List.map_cons,
        List.intercalate_cons_cons]
      cases rest with
      | nil => simp
      | cons next rest => simp [List.intercalate_cons_cons]

/-- The text holds the units of the leaf blocks, with a line feed between two. -/
theorem text_doc (doc : List Block) : (buildPlainTextProjection doc).text =
    List.intercalate [10] ((leafBlocks doc).map fun leaf => leaf.content.flatMap Inline.units) := by
  change (walkOf doc).textParts.flatten = _
  rw [walkOf, walk_blocks]
  change (Walk.textParts ((leafBlocks doc).foldl _ _)).flatten = _
  cases leafBlocks doc with
  | nil => rfl
  | cons first rest =>
      obtain ⟨htext, hsaw⟩ := text_leafBlock Walk.start first
      rw [List.foldl_cons, text_walk rest hsaw, htext]
      rfl

theorem whole_doc (h : leafBlocks doc = block :: blocks) : ∃ high,
    Whole (laid (block :: blocks) false 0) block.start high
      (buildPlainTextProjection doc).text.length ∧ high < blocksSize doc := by
  have hplaced := h ▸ placed_doc doc
  obtain ⟨high, last, hrun, hhigh, hlast, hcontent⟩ := run_doc hplaced
  have hpos := hplaced.low_le block List.mem_cons_self
  rw [← length_doc h] at hrun
  refine ⟨high, ⟨hrun, Int.le_add_of_nonneg_left hpos, ?_, ?_⟩, hhigh⟩
  · intro seg hseg
    obtain ⟨first, rest, hsegments, -, -⟩ := (run_segments block 0).exists_cons
    have hhead : (laid (block :: blocks) false 0).head? = some first := by
      rw [laid, hsegments]
      rfl
    obtain rfl := Option.some.inj (hhead.symm.trans hseg)
    exact content_segments first (hsegments ▸ List.mem_cons_self)
  · intro seg hseg
    obtain rfl := Option.some.inj (hlast.symm.trans hseg)
    exact hcontent

theorem maps_doc (doc : List Block) :
    (buildPlainTextProjection doc).mapPMToTextOffset =
        mapPMToTextOffset (laid (leafBlocks doc) false 0)
          (buildPlainTextProjection doc).text.length ∧
      (buildPlainTextProjection doc).mapTextOffsetToPM =
        mapTextOffsetToPM (laid (leafBlocks doc) false 0) (blocksSize doc) := by
  rw [← segments_doc]
  exact ⟨rfl, rfl⟩

/-- The text is that of the document. Offsets that are not inside an emoji come back from the
document, and both maps are monotone and stay within the text and the document. -/
theorem offsets_come_back (doc : List Block) :
    (buildPlainTextProjection doc).text = List.intercalate [10]
      ((leafBlocks doc).map fun leaf => leaf.content.flatMap Inline.units) ∧
    (∀ offset : ℤ, 0 ≤ offset → offset ≤ (buildPlainTextProjection doc).text.length →
      ¬InsideEmoji doc offset →
      (buildPlainTextProjection doc).mapPMToTextOffset
        ((buildPlainTextProjection doc).mapTextOffsetToPM offset) = offset) ∧
    Monotone (buildPlainTextProjection doc).mapPMToTextOffset ∧
    Monotone (buildPlainTextProjection doc).mapTextOffsetToPM ∧
    (∀ pm : ℤ, 0 ≤ (buildPlainTextProjection doc).mapPMToTextOffset pm ∧
      (buildPlainTextProjection doc).mapPMToTextOffset pm ≤
        (buildPlainTextProjection doc).text.length) ∧
    ∀ offset : ℤ, 0 ≤ (buildPlainTextProjection doc).mapTextOffsetToPM offset ∧
      (buildPlainTextProjection doc).mapTextOffsetToPM offset ≤ blocksSize doc := by
  refine ⟨text_doc doc, ?_⟩
  obtain ⟨htext, hposition⟩ := maps_doc doc
  rw [htext, hposition]
  cases hblocks : leafBlocks doc with
  | nil =>
      have hlength : ((buildPlainTextProjection doc).text.length : ℤ) = 0 := by
        have hwalked := walked_doc doc
        rw [hblocks] at hwalked
        exact hwalked.length.trans hwalked.cursorText
      have htextZero : ∀ pm, mapPMToTextOffset (laid [] false 0) 0 pm = 0 := by
        intro pm
        exact ite_self 0
      have hpositionSame : ∀ offset, mapTextOffsetToPM (laid [] false 0) (blocksSize doc) offset =
          emptyPosition (blocksSize doc) := by
        intro offset
        exact ite_self _
      have hsize := blocksSize_nonneg doc
      rw [hlength]
      refine ⟨?_, ?_, ?_, ?_, ?_⟩
      · intro offset hlow hhigh _
        rw [htextZero]
        omega
      · intro pm next _
        rw [htextZero, htextZero]
      · intro offset next _
        rw [hpositionSame, hpositionSame]
      · intro pm
        rw [htextZero]
        exact ⟨le_rfl, le_rfl⟩
      · intro offset
        rw [hpositionSame, emptyPosition]
        split_ifs <;> omega
  | cons block blocks =>
      obtain ⟨high, hwhole, hhigh⟩ := whole_doc hblocks
      refine ⟨?_, hwhole.textOffset_mono, hwhole.position_mono, fun pm => hwhole.textOffset_bounds,
        ?_⟩
      · intro offset hlow hlength hout
        refine hwhole.round_trip hlow hlength ?_
        intro seg hseg hinside
        obtain ⟨earlier, found, later, nodes, shortcode, rest, hsplit, hcontent, hfrom, hto⟩ :=
          inside_laid _ false 0 seg hseg hinside
        rw [zero_add] at hfrom hto
        exact hout ⟨earlier, found, later, nodes, shortcode, rest, hblocks.trans hsplit, hcontent,
          hfrom, hto⟩
      · intro offset
        have hone := hwhole.one_le
        have hbounds := @Whole.position_bounds _ _ _ _ (blocksSize doc) offset hwhole
        exact ⟨by omega, by omega⟩

end Offsets

end Buzz.PlainText
