import Buzz.PlainTextRoundTrip

/-!
# The caret of the editor

A caret comes back into its block, except at the break or the emoji that ends a block with another
block after it: there the offset is that of the boundary, which lies between the two.
-/

namespace Buzz.PlainText

section Ends

variable {block : LeafBlock} {pos offset : ℤ}

/-- The content ends with a hard break or an emoji. -/
def EndsWithAtom (content : List Inline) : Prop :=
  match content.getLast? with
  | some .hardBreak => True
  | some (.customEmoji _) => True
  | _ => False

theorem getLast?_inlineSegments (node : Inline) (nodes : List Inline) (pos offset : ℤ) :
    ∃ last at' from', (node :: nodes).getLast? = some last ∧
      (inlineSegments (node :: nodes) pos offset).getLast? = some (last.segment at' from') := by
  induction nodes generalizing node pos offset with
  | nil => exact ⟨node, pos, offset, rfl, rfl⟩
  | cons next nodes ih =>
      obtain ⟨last, at', from', hlast, hsegment⟩ :=
        ih next (pos + node.nodeSize) (offset + node.units.length)
      refine ⟨last, at', from', ?_, ?_⟩
      · rw [List.getLast?_cons, hlast]
        rfl
      · rw [inlineSegments, List.getLast?_cons, hsegment]
        rfl

/-- The last segment of a block leaves its last offset to the next one if and only if it is a break
or an emoji. -/
theorem last_refuses_iff {last : Segment} (hlast : (block.segments offset).getLast? = some last) :
    last.position? last.textTo = none ↔ EndsWithAtom block.content := by
  unfold LeafBlock.segments at hlast
  split_ifs at hlast with hempty
  · obtain rfl := Option.some.inj hlast
    rw [EndsWithAtom, (contentSize_eq_zero_iff block.content).mp hempty]
    simp [Segment.position?, Segment.textTo]
  · cases hcontent : block.content with
    | nil => exact absurd ((contentSize_eq_zero_iff block.content).mpr hcontent) hempty
    | cons node nodes =>
        obtain ⟨found, at', from', hfound, hsegment⟩ :=
          getLast?_inlineSegments node nodes block.start offset
        rw [hcontent, hsegment] at hlast
        obtain rfl := Option.some.inj hlast
        rw [EndsWithAtom, hfound]
        cases found <;> simp [Inline.segment, Segment.position?, Segment.textTo]

/-- A segment that leaves its last offset to the next one has a width in the text. -/
theorem text_lt_of_refuses {seg : Segment} (hwide : seg.Wide)
    (h : seg.position? seg.textTo = none) : seg.textFrom < seg.textTo := by
  cases seg with
  | text pmFrom pmTo textFrom textTo =>
      rw [Segment.position?, Segment.textTo, if_pos le_rfl] at h
      cases h
  | hardBreak => exact (Int.lt_succ _).trans_eq hwide.2.symm
  | atom => exact hwide.2
  | emptyBlockContent pmAt textAt =>
      rw [Segment.position?, Segment.textTo, if_pos le_rfl] at h
      cases h
  | blockBoundary => exact (Int.lt_succ _).trans_eq (Eq.symm hwide)

end Ends

section Splits

variable {earlier later : List LeafBlock} {block next : LeafBlock} {low limit pm offset size : ℤ}

theorem textLength_nonneg (content : List Inline) : 0 ≤ textLength content := Int.natCast_nonneg _

theorem offsetAfter_nonneg (blocks : List LeafBlock) : 0 ≤ offsetAfter blocks := by
  induction blocks with
  | nil => exact le_rfl
  | cons block blocks ih =>
      have hlength := textLength_nonneg block.content
      rw [offsetAfter_cons]
      omega

/-- What comes before the content of a block. -/
def opening (earlier : List LeafBlock) (block : LeafBlock) : List Segment :=
  laid earlier false 0 ++
    if !earlier.isEmpty then
      [.blockBoundary block.pos (offsetAfter earlier - 1) (offsetAfter earlier)]
    else []

theorem laid_split (earlier later : List LeafBlock) (block : LeafBlock) :
    laid (earlier ++ block :: later) false 0 =
      opening earlier block ++ (block.segments (offsetAfter earlier) ++
        laid later true (offsetAfter earlier + textLength block.content + 1)) := by
  rw [laid_append, Bool.false_or, zero_add, laid, opening, List.append_assoc]

/-- What comes before the content of a block ends before it. -/
theorem opening_before (h : Placed (earlier ++ block :: later) low limit) :
    ∀ seg ∈ opening earlier block, seg.Wide ∧ seg.pmTo < block.start ∧
      ∀ offset, offsetAfter earlier ≤ offset → seg.position? offset = none := by
  cases earlier with
  | nil => exact fun _ h => absurd h List.not_mem_nil
  | cons first rest =>
      intro seg hseg
      rw [opening, List.isEmpty_cons, Bool.not_false, if_pos rfl, List.mem_append] at hseg
      have happart := List.pairwise_append.mp h.apart
      have hplaced : Placed (first :: rest) low block.pos :=
        ⟨fun other hother => h.low_le other (List.mem_append_left _ hother),
          fun other hother => happart.2.2 other hother block List.mem_cons_self, happart.1⟩
      rcases hseg with hlaid | hboundary
      · obtain ⟨high, -, hrun, hhigh, -, -⟩ := run_doc hplaced
        obtain ⟨hpm, htext⟩ := hrun.le_high seg hlaid
        refine ⟨hrun.wide seg hlaid, hpm.trans_lt (hhigh.trans (Int.lt_succ _)), ?_⟩
        intro offset hoffset
        exact position?_of_lt (by omega)
      · obtain rfl := List.mem_singleton.mp hboundary
        refine ⟨(sub_add_cancel _ _).symm, Int.lt_succ _, ?_⟩
        intro offset hoffset
        exact if_neg (not_lt.mpr hoffset)

/-- A position in a block has an offset of its content. -/
theorem textOffset_of_contains {length : ℤ} (hplaced : Placed (earlier ++ block :: later) 0 limit)
    (hin : block.Contains pm) :
    offsetAfter earlier ≤ mapPMToTextOffset (laid (earlier ++ block :: later) false 0) length pm ∧
      mapPMToTextOffset (laid (earlier ++ block :: later) false 0) length pm ≤
        offsetAfter earlier + textLength block.content := by
  have hrun := run_segments block (offsetAfter earlier)
  obtain ⟨last, hlast, hpm, htext⟩ := hrun.last
  have hmem := List.mem_of_getLast? hlast
  have hpos := hplaced.low_le block (List.mem_append_right _ List.mem_cons_self)
  have hstart : 0 < pm := lt_of_lt_of_le (Int.lt_add_one_of_le hpos) hin.1
  have hanswers : ∃ value, last.textOffset? pm = some value := by
    rw [← Option.ne_none_iff_exists', ne_eq, textOffset?_eq_none_iff (hrun.wide last hmem), hpm]
    exact not_lt.mpr hin.2
  obtain ⟨value, hvalue⟩ := hanswers
  have hbefore : ∀ seg ∈ opening earlier block, seg.textOffset? pm = none := by
    intro seg hseg
    obtain ⟨hwide, hlt, -⟩ := opening_before hplaced seg hseg
    exact (textOffset?_eq_none_iff hwide).mpr (hlt.trans_le hin.1)
  rw [mapPMToTextOffset, if_neg (not_le.mpr hstart), laid_split,
    Piecewise.first_append_of_none hbefore,
    Piecewise.first_append_of_some (offsetAfter earlier + textLength block.content) hmem hvalue]
  exact ⟨hrun.le_textOffset le_rfl, hrun.textOffset_le le_rfl⟩

/-- The last answer is that of the block, if no other block comes after it. -/
theorem tail_of_last (earlier : List LeafBlock) (block : LeafBlock) :
    ((laid (earlier ++ [block]) false 0).getLast?.map Segment.pmTo).getD (emptyPosition size) =
      block.stop := by
  obtain ⟨last, hlast, hpm, -⟩ := (run_segments block (offsetAfter earlier)).last
  rw [laid_split, laid, List.append_nil, List.getLast?_append, hlast]
  exact hpm

theorem position_after_opening (hplaced : Placed (earlier ++ block :: later) 0 limit)
    (hpos : 0 < offset) (hlow : offsetAfter earlier ≤ offset) :
    mapTextOffsetToPM (laid (earlier ++ block :: later) false 0) size offset =
      Piecewise.first Segment.position? (block.segments (offsetAfter earlier) ++
          laid later true (offsetAfter earlier + textLength block.content + 1))
        (((laid (earlier ++ block :: later) false 0).getLast?.map Segment.pmTo).getD
          (emptyPosition size)) offset := by
  have hopening : ∀ seg ∈ opening earlier block, seg.position? offset = none :=
    fun seg hseg => (opening_before hplaced seg hseg).2.2 offset hlow
  have hsplit := laid_split earlier later block
  rw [mapTextOffsetToPM, if_neg (not_le.mpr hpos)]
  exact (congrArg (fun segments => Piecewise.first Segment.position? segments _ offset)
    hsplit).trans (Piecewise.first_append_of_none hopening)

/-- A boundary answers the last offset of the block before it. -/
theorem boundary_answers (blocks : List LeafBlock) (tail : ℤ) :
    Piecewise.first Segment.position? (laid (next :: blocks) true (offset + 1)) tail offset =
      next.pos := by
  rw [laid, if_pos rfl]
  exact Piecewise.first_cons_of_some (if_pos (Int.lt_succ offset))

theorem position_at_end (hplaced : Placed (earlier ++ block :: next :: later) 0 limit)
    (hatom : EndsWithAtom block.content) :
    mapTextOffsetToPM (laid (earlier ++ block :: next :: later) false 0) size
      (offsetAfter earlier + textLength block.content) = next.pos := by
  have hlength := textLength_nonneg block.content
  have hrun := run_segments block (offsetAfter earlier)
  obtain ⟨last, hlast, hpm, htext⟩ := hrun.last
  obtain ⟨init, hinit⟩ := List.getLast?_eq_some_iff.mp hlast
  have hmem := List.mem_of_getLast? hlast
  have hrefuse := (last_refuses_iff hlast).mpr hatom
  have hlt := text_lt_of_refuses (hrun.wide last hmem) hrefuse
  have hfrom := hrun.low_le last hmem
  have hearlier := offsetAfter_nonneg earlier
  have hrefuses : ∀ seg ∈ block.segments (offsetAfter earlier),
      seg.position? (offsetAfter earlier + textLength block.content) = none := by
    intro seg hseg
    rw [← htext]
    have hpairwise := hrun.pairwise
    rw [hinit] at hseg hpairwise
    rcases List.mem_append.mp hseg with hother | hsame
    · have hbefore := (List.pairwise_append.mp hpairwise).2.2 seg hother last
        (List.mem_singleton_self _)
      exact position?_of_lt (hbefore.text_le.trans_lt hlt)
    · rw [List.mem_singleton.mp hsame]
      exact hrefuse
  rw [position_after_opening hplaced (by omega) (by omega), Piecewise.first_append_of_none hrefuses]
  exact boundary_answers later _

/-- An offset of a block has a position in the block, unless it is the last one, after a break or an
emoji, with another block after it. -/
theorem contains_position (hplaced : Placed (earlier ++ block :: later) 0 limit)
    (hlow : offsetAfter earlier ≤ offset)
    (hhigh : offset ≤ offsetAfter earlier + textLength block.content)
    (hend : EndsWithAtom block.content → later = []) :
    block.Contains (mapTextOffsetToPM (laid (earlier ++ block :: later) false 0) size offset) := by
  have hrun := run_segments block (offsetAfter earlier)
  have hsize := contentSize_nonneg block.content
  have hcontains : block.Contains block.start := ⟨le_rfl, Int.le_add_of_nonneg_right hsize⟩
  rcases le_or_gt offset 0 with hoffset | hoffset
  · cases earlier with
    | nil =>
        obtain ⟨first, rest, hsegments, hpm, -⟩ := hrun.exists_cons
        have hcontent : first.contentStart? = some first.pmFrom :=
          content_segments first (hsegments ▸ List.mem_cons_self)
        have hopening : opening [] block = [] := rfl
        rw [mapTextOffsetToPM, if_pos hoffset, laid_split, hsegments, hopening, List.nil_append,
          List.cons_append, List.findSome?_cons, hcontent, hpm]
        exact hcontains
    | cons other earlier =>
        have hother := textLength_nonneg other.content
        have hearlier := offsetAfter_nonneg earlier
        rw [offsetAfter_cons] at hlow
        omega
  rw [position_after_opening hplaced hoffset hlow]
  by_cases hanswers : ∀ seg ∈ block.segments (offsetAfter earlier), seg.position? offset = none
  · obtain ⟨last, hlast, hpm, htext⟩ := hrun.last
    have hmem := List.mem_of_getLast? hlast
    have hle := textTo_le_of_position? (hrun.wide last hmem) (hanswers last hmem)
    have hsame : offset = last.textTo := by omega
    have hatom := (last_refuses_iff hlast).mp (hsame ▸ hanswers last hmem)
    obtain rfl := hend hatom
    rw [Piecewise.first_append_of_none hanswers, laid, Piecewise.first_nil, tail_of_last]
    exact ⟨Int.le_add_of_nonneg_right hsize, le_rfl⟩
  · push Not at hanswers
    obtain ⟨seg, hseg, hsome⟩ := hanswers
    obtain ⟨pm, hpm⟩ := Option.ne_none_iff_exists'.mp hsome
    rw [Piecewise.first_append_of_some block.stop hseg hpm]
    exact ⟨hrun.le_position hlow, hrun.position_le⟩

end Splits

section Carets

variable {doc : List Block} {earlier later : List LeafBlock} {block : LeafBlock} {pm offset : ℤ}

/-- Every offset up to the length of the text is one of a block. -/
theorem exists_block_of_offset (blocks : List LeafBlock) (origin : ℤ) : origin ≤ offset →
    offset < origin + offsetAfter blocks →
    ∃ earlier block later, blocks = earlier ++ block :: later ∧
      origin + offsetAfter earlier ≤ offset ∧
      offset ≤ origin + offsetAfter earlier + textLength block.content := by
  induction blocks generalizing origin with
  | nil =>
      intro hlow hhigh
      exact absurd (hhigh.trans_eq (add_zero origin)) (not_lt.mpr hlow)
  | cons block blocks ih =>
      intro hlow hhigh
      rw [offsetAfter_cons] at hhigh
      by_cases hin : offset ≤ origin + textLength block.content
      · have hzero : origin + offsetAfter [] = origin := add_zero origin
        refine ⟨[], block, blocks, rfl, ?_, ?_⟩
        · rwa [hzero]
        · rwa [hzero]
      · obtain ⟨earlier, found, later, rfl, hfrom, hto⟩ :=
          ih (origin + textLength block.content + 1) (by omega) (by omega)
        refine ⟨block :: earlier, found, later, rfl, ?_, ?_⟩
        · rw [offsetAfter_cons]
          omega
        · rw [offsetAfter_cons]
          omega

/-- The caret stays in its block, and an end point of a range in a document with leaf blocks is
inside the content of one. -/
structure CaretsStay (doc : List Block) : Prop where
  caret : ∀ block ∈ leafBlocks doc, ∀ pm, block.Contains pm →
    block.Contains ((buildPlainTextProjection doc).mapTextOffsetToPM
      ((buildPlainTextProjection doc).mapPMToTextOffset pm))
  endPoint : leafBlocks doc ≠ [] → ∀ offset, ∃ block ∈ leafBlocks doc,
    block.Contains ((buildPlainTextProjection doc).mapTextOffsetToPM offset)

/-- An offset has a position in a block, unless a block before the last ends with a break or an
emoji. -/
theorem endPoint_contained (hne : leafBlocks doc ≠ [])
    (hlast : ∀ earlier block later, leafBlocks doc = earlier ++ block :: later →
      EndsWithAtom block.content → later = []) (offset : ℤ) : ∃ block ∈ leafBlocks doc,
      block.Contains ((buildPlainTextProjection doc).mapTextOffsetToPM offset) := by
  obtain ⟨first, rest, hdoc⟩ := List.exists_cons_of_ne_nil hne
  obtain ⟨high, hwhole, -⟩ := whole_doc hdoc
  have hplaced := placed_doc doc
  rw [(maps_doc doc).2]
  rcases le_or_gt offset 0 with hoffset | hoffset
  · have hsize := contentSize_nonneg first.content
    rw [hdoc, hwhole.position_start hoffset]
    exact ⟨first, List.mem_cons_self, le_rfl, Int.le_add_of_nonneg_right hsize⟩
  by_cases hlength : offset < offsetAfter (leafBlocks doc)
  · obtain ⟨earlier, block, later, hsplit, hlow, hhigh⟩ :=
      exists_block_of_offset (leafBlocks doc) 0 hoffset.le (by omega)
    rw [zero_add] at hlow hhigh
    refine ⟨block, hsplit ▸ List.mem_append_right _ List.mem_cons_self, ?_⟩
    have hmapped := @contains_position earlier later block _ offset (blocksSize doc)
      (hsplit ▸ hplaced) hlow hhigh (hlast earlier block later hsplit)
    rwa [← hsplit] at hmapped
  · have hrefuses : ∀ seg ∈ laid (leafBlocks doc) false 0, seg.position? offset = none := by
      intro seg hseg
      rw [hdoc] at hseg hlength
      have hto := (hwhole.le_high seg hseg).2
      rw [length_doc hdoc] at hto
      exact position?_of_lt (by omega)
    obtain ⟨earlier, block, hsplit⟩ :=
      (List.eq_nil_or_concat' (leafBlocks doc)).resolve_left hne
    have hsize := contentSize_nonneg block.content
    refine ⟨block, hsplit ▸ List.mem_append_right _ (List.mem_singleton_self _), ?_⟩
    rw [mapTextOffsetToPM, if_neg (not_le.mpr hoffset), Piecewise.first_of_none hrefuses, hsplit,
      tail_of_last]
    exact ⟨Int.le_add_of_nonneg_right hsize, le_rfl⟩

theorem stop_mapped (hdoc : leafBlocks doc = earlier ++ block :: later)
    (hatom : EndsWithAtom block.content) :
    (buildPlainTextProjection doc).mapPMToTextOffset block.stop =
      offsetAfter earlier + textLength block.content := by
  have hplaced := hdoc ▸ placed_doc doc
  have hrun := run_segments block (offsetAfter earlier)
  obtain ⟨last, hlast, hpm, htext⟩ := hrun.last
  obtain ⟨init, hinit⟩ := List.getLast?_eq_some_iff.mp hlast
  have hmem := List.mem_of_getLast? hlast
  have hwide := hrun.wide last hmem
  have hlt := lt_of_position?_textTo hwide (content_segments last hmem)
    ((last_refuses_iff hlast).mpr hatom)
  have hpos := hplaced.low_le block (List.mem_append_right _ List.mem_cons_self)
  have hsize := contentSize_nonneg block.content
  have hstart : block.start ≤ block.stop := Int.le_add_of_nonneg_right hsize
  have hstop : 0 < block.stop := lt_of_lt_of_le (Int.lt_add_one_of_le hpos) hstart
  have hopening : ∀ seg ∈ opening earlier block, seg.textOffset? block.stop = none := by
    intro seg hseg
    obtain ⟨hsegWide, hbefore, -⟩ := opening_before hplaced seg hseg
    exact (textOffset?_eq_none_iff hsegWide).mpr (hbefore.trans_le hstart)
  rw [(maps_doc doc).1, hdoc, mapPMToTextOffset, if_neg (not_le.mpr hstop), laid_split,
    Piecewise.first_append_of_none hopening, hinit, List.append_assoc, ← hpm, ← htext]
  refine Piecewise.first_of_agree ?_ (textOffset?_pmTo hwide hlt)
  intro other hother
  have hpairwise := hrun.pairwise
  rw [hinit] at hpairwise
  have hle := ((List.pairwise_append.mp hpairwise).2.2 other hother last
    (List.mem_singleton_self _)).pm_le
  have hotherWide := hrun.wide other (hinit ▸ List.mem_append_left _ hother)
  exact Or.inl ((textOffset?_eq_none_iff hotherWide).mpr (hle.trans_lt hlt))

/-- Carets stay in their blocks if and only if no block but the last ends with a break or an
emoji. -/
theorem carets_stay_iff (doc : List Block) :
    CaretsStay doc ↔ ∀ block ∈ (leafBlocks doc).dropLast, ¬EndsWithAtom block.content := by
  obtain ⟨htext, hposition⟩ := maps_doc doc
  constructor
  · intro h block hblock hatom
    obtain ⟨earlier, others, hsplit⟩ := List.append_of_mem hblock
    have hne : leafBlocks doc ≠ [] := by
      intro hnil
      rw [hnil] at hblock
      exact absurd hblock List.not_mem_nil
    have hdoc : leafBlocks doc =
        earlier ++ block :: (others ++ [(leafBlocks doc).getLast hne]) := by
      conv_lhs => rw [← List.dropLast_append_getLast hne, hsplit]
      rw [List.append_assoc, List.cons_append]
    obtain ⟨next, later, hlater⟩ : ∃ next later,
        others ++ [(leafBlocks doc).getLast hne] = next :: later :=
      List.exists_cons_of_ne_nil (List.append_ne_nil_of_right_ne_nil _ (List.cons_ne_nil _ _))
    rw [hlater] at hdoc
    have hplaced := hdoc ▸ placed_doc doc
    have hmem : block ∈ leafBlocks doc := hdoc ▸ List.mem_append_right _ List.mem_cons_self
    have hsize := contentSize_nonneg block.content
    have hback := h.caret block hmem block.stop ⟨Int.le_add_of_nonneg_right hsize, le_rfl⟩
    rw [stop_mapped hdoc hatom, hposition, hdoc, position_at_end hplaced hatom] at hback
    have hapart := (List.pairwise_cons.mp (List.pairwise_append.mp hplaced.apart).2.1).1 next
      List.mem_cons_self
    exact absurd hback.2 (not_le.mpr hapart)
  · intro h
    have hlast : ∀ earlier block later, leafBlocks doc = earlier ++ block :: later →
        EndsWithAtom block.content → later = [] := by
      intro earlier block later hdoc hatom
      by_contra hlater
      refine h block ?_ hatom
      rw [hdoc, List.dropLast_append_of_ne_nil (List.cons_ne_nil _ _),
        List.dropLast_cons_of_ne_nil hlater]
      exact List.mem_append_right _ List.mem_cons_self
    constructor
    · intro block hblock pm hin
      obtain ⟨earlier, later, hdoc⟩ := List.append_of_mem hblock
      have hplaced := hdoc ▸ placed_doc doc
      rw [htext, hposition, hdoc]
      obtain ⟨hlow, hhigh⟩ := @textOffset_of_contains _ _ _ _ _
        ((buildPlainTextProjection doc).text.length : ℤ) hplaced hin
      exact contains_position hplaced hlow hhigh (hlast earlier block later hdoc)
    · exact fun hne => endPoint_contained hne hlast

/-- A paragraph that ends with a break, with another paragraph after it. -/
def brokenLine : LeafBlock := ⟨0, [.text ⟨[104, 105], by decide⟩, .hardBreak]⟩

def twoLines : List Block := [.leafBlock brokenLine.content, .leafBlock [.text ⟨[120], by decide⟩]]

/-- The caret after the break comes back between the two paragraphs. -/
theorem caret_between_blocks :
    (leafBlocks twoLines).head? = some brokenLine ∧ brokenLine.Contains 4 ∧
      ¬brokenLine.Contains ((buildPlainTextProjection twoLines).mapTextOffsetToPM
        ((buildPlainTextProjection twoLines).mapPMToTextOffset 4)) := by
  refine ⟨rfl, by decide, ?_⟩
  have hmapped : (buildPlainTextProjection twoLines).mapTextOffsetToPM
      ((buildPlainTextProjection twoLines).mapPMToTextOffset 4) = 5 := by decide +kernel
  rw [hmapped]
  decide

end Carets

end Buzz.PlainText
