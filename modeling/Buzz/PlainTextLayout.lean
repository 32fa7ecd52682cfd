import Buzz.PlainTextProjection

/-!
# The layout of the segments

The walk goes from leaf block to leaf block. The segments of a document follow each other in the
text without a gap, and in the document a gap or a boundary lies between two leaf blocks.
-/

namespace Buzz.PlainText

section LeafBlocks

/-- A leaf block with the position before it. -/
structure LeafBlock where
  pos : ℤ
  content : List Inline

/-- The first position inside the content. -/
def LeafBlock.start (block : LeafBlock) : ℤ := block.pos + 1

/-- The last position inside the content. -/
def LeafBlock.stop (block : LeafBlock) : ℤ := block.pos + 1 + contentSize block.content

/-- The positions inside the content of a leaf block. -/
def LeafBlock.Contains (block : LeafBlock) (pm : ℤ) : Prop := block.start ≤ pm ∧ pm ≤ block.stop

instance (block : LeafBlock) (pm : ℤ) : Decidable (block.Contains pm) :=
  inferInstanceAs (Decidable (_ ∧ _))

mutual

def Block.leafBlocks : Block → ℤ → List LeafBlock
  | .leafBlock content, pos => [⟨pos, content⟩]
  | .container children, pos => leafBlocksFrom children (pos + 1)
  | .horizontalRule, _ => []

def leafBlocksFrom : List Block → ℤ → List LeafBlock
  | [], _ => []
  | block :: blocks, pos =>
      block.leafBlocks pos ++ leafBlocksFrom blocks (pos + block.nodeSize)

end

/-- The leaf blocks of a document. -/
def leafBlocks (doc : List Block) : List LeafBlock := leafBlocksFrom doc 0

theorem nodeSize_pos (node : Inline) : 0 < node.nodeSize := by
  cases node with
  | text node =>
      have hlength := List.length_pos_of_ne_nil node.nonempty
      simp only [Inline.nodeSize]
      omega
  | hardBreak => decide
  | customEmoji shortcode => exact Int.one_pos

theorem contentSize_cons (node : Inline) (nodes : List Inline) :
    contentSize (node :: nodes) = node.nodeSize + contentSize nodes := by
  rw [contentSize, List.map_cons, List.sum_cons]
  rfl

theorem contentSize_nonneg (content : List Inline) : 0 ≤ contentSize content := by
  induction content with
  | nil => exact le_rfl
  | cons node nodes ih =>
      have hnode := nodeSize_pos node
      rw [contentSize_cons]
      omega

theorem contentSize_eq_zero_iff (content : List Inline) : contentSize content = 0 ↔
    content = [] := by
  cases content with
  | nil => exact ⟨fun _ => rfl, fun _ => rfl⟩
  | cons node nodes =>
      have hnode := nodeSize_pos node
      have hnodes := contentSize_nonneg nodes
      rw [contentSize_cons]
      exact ⟨fun h => by omega, fun h => by cases h⟩

mutual

/-- The walk goes from leaf block to leaf block. -/
theorem walk_block (walk : Walk) (block : Block) (pos : ℤ) : walk.block block pos =
    (block.leafBlocks pos).foldl (fun walk leaf => walk.leafBlock leaf.content leaf.pos) walk := by
  cases block with
  | leafBlock content => rfl
  | container children => exact walk_blocks walk children (pos + 1)
  | horizontalRule => rfl

theorem walk_blocks (walk : Walk) (blocks : List Block) (pos : ℤ) : walk.blocks blocks pos =
    (leafBlocksFrom blocks pos).foldl (fun walk leaf => walk.leafBlock leaf.content leaf.pos)
      walk := by
  cases blocks with
  | nil => rfl
  | cons block blocks =>
      rw [leafBlocksFrom, List.foldl_append, ← walk_block walk block pos, ← walk_blocks]
      rfl

end

/-- The leaf blocks lie between two positions, one after the other. -/
structure Placed (blocks : List LeafBlock) (low high : ℤ) : Prop where
  low_le : ∀ block ∈ blocks, low ≤ block.pos
  lt_high : ∀ block ∈ blocks, block.stop < high
  apart : blocks.Pairwise fun first second => first.stop < second.pos

theorem Placed.append {first second : List LeafBlock} {low middle high : ℤ}
    (hfirst : Placed first low middle) (hsecond : Placed second middle high)
    (hlow : low ≤ middle) (hhigh : middle ≤ high) : Placed (first ++ second) low high := by
  constructor
  · intro block hblock
    rcases List.mem_append.mp hblock with hmem | hmem
    · exact hfirst.low_le block hmem
    · exact hlow.trans (hsecond.low_le block hmem)
  · intro block hblock
    rcases List.mem_append.mp hblock with hmem | hmem
    · exact (hfirst.lt_high block hmem).trans_le hhigh
    · exact hsecond.lt_high block hmem
  · rw [List.pairwise_append]
    refine ⟨hfirst.apart, hsecond.apart, ?_⟩
    intro block hblock other hother
    exact (hfirst.lt_high block hblock).trans_le (hsecond.low_le other hother)

theorem placed_nil (low high : ℤ) : Placed [] low high :=
  ⟨fun _ h => absurd h List.not_mem_nil, fun _ h => absurd h List.not_mem_nil, .nil⟩

mutual

theorem nodeSize_nonneg (block : Block) : 0 ≤ block.nodeSize := by
  cases block with
  | leafBlock content =>
      have hcontent := contentSize_nonneg content
      simp only [Block.nodeSize]
      omega
  | container children =>
      have hchildren := blocksSize_nonneg children
      simp only [Block.nodeSize]
      omega
  | horizontalRule => decide

theorem blocksSize_nonneg (blocks : List Block) : 0 ≤ blocksSize blocks := by
  cases blocks with
  | nil => exact le_rfl
  | cons block blocks =>
      have hblock := nodeSize_nonneg block
      have hblocks := blocksSize_nonneg blocks
      simp only [blocksSize]
      omega

end

mutual

theorem placed_leafBlocks (block : Block) (pos : ℤ) :
    Placed (block.leafBlocks pos) pos (pos + block.nodeSize) := by
  cases block with
  | leafBlock content =>
      simp only [Block.leafBlocks, Block.nodeSize]
      constructor
      · intro leaf hleaf
        rw [List.mem_singleton.mp hleaf]
      · intro leaf hleaf
        rw [List.mem_singleton.mp hleaf, LeafBlock.stop]
        dsimp only
        omega
      · exact List.pairwise_singleton _ _
  | container children =>
      have hchildren := placed_leafBlocksFrom children (pos + 1)
      simp only [Block.leafBlocks, Block.nodeSize]
      constructor
      · intro leaf hleaf
        have hlow := hchildren.low_le leaf hleaf
        omega
      · intro leaf hleaf
        have hhigh := hchildren.lt_high leaf hleaf
        omega
      · exact hchildren.apart
  | horizontalRule => exact placed_nil _ _

theorem placed_leafBlocksFrom (blocks : List Block) (pos : ℤ) :
    Placed (leafBlocksFrom blocks pos) pos (pos + blocksSize blocks) := by
  cases blocks with
  | nil => exact placed_nil _ _
  | cons block blocks =>
      have hblock := nodeSize_nonneg block
      have hblocks := blocksSize_nonneg blocks
      have hrest := placed_leafBlocksFrom blocks (pos + block.nodeSize)
      simp only [leafBlocksFrom, blocksSize]
      rw [← add_assoc]
      exact (placed_leafBlocks block pos).append hrest (by omega) (by omega)

end

theorem placed_doc (doc : List Block) : Placed (leafBlocks doc) 0 (blocksSize doc) := by
  have hplaced := placed_leafBlocksFrom doc 0
  rwa [zero_add] at hplaced

end LeafBlocks

section Segments

variable {walk : Walk} {pos offset : ℤ}

/-- The text of an inline node. -/
def Inline.units : Inline → List UInt16
  | .text node => node.text
  | .hardBreak => [10]
  | .customEmoji shortcode => projected shortcode

def Inline.segment : Inline → ℤ → ℤ → Segment
  | .text node, pos, offset =>
      .text pos (pos + node.text.length) offset (offset + node.text.length)
  | .hardBreak, pos, offset => .hardBreak pos (pos + 1) offset (offset + 1)
  | .customEmoji shortcode, pos, offset =>
      .atom pos (pos + 1) offset (offset + (projected shortcode).length)

def textLength (content : List Inline) : ℤ := (content.flatMap Inline.units).length

def inlineSegments : List Inline → ℤ → ℤ → List Segment
  | [], _, _ => []
  | node :: nodes, pos, offset =>
      node.segment pos offset ::
        inlineSegments nodes (pos + node.nodeSize) (offset + node.units.length)

/-- The segments of the content of a leaf block. -/
def LeafBlock.segments (block : LeafBlock) (offset : ℤ) : List Segment :=
  if contentSize block.content = 0 then [.emptyBlockContent block.start offset]
  else inlineSegments block.content block.start offset

/-- The segments of leaf blocks, with the offset of the first content. -/
def laid : List LeafBlock → Bool → ℤ → List Segment
  | [], _, _ => []
  | block :: blocks, separated, offset =>
      (if separated then [.blockBoundary block.pos (offset - 1) offset] else []) ++
        (block.segments offset ++ laid blocks true (offset + textLength block.content + 1))

/-- The offset of the content that would come after leaf blocks. -/
def offsetAfter (blocks : List LeafBlock) : ℤ :=
  (blocks.map fun block => textLength block.content + 1).sum

theorem textLength_cons (node : Inline) (nodes : List Inline) :
    textLength (node :: nodes) = node.units.length + textLength nodes := by
  rw [textLength, List.flatMap_cons, List.length_append, Int.natCast_add]
  rfl

theorem offsetAfter_cons (block : LeafBlock) (blocks : List LeafBlock) :
    offsetAfter (block :: blocks) = textLength block.content + 1 + offsetAfter blocks := by
  rw [offsetAfter, List.map_cons, List.sum_cons]
  rfl

theorem laid_append (first second : List LeafBlock) (separated : Bool) (offset : ℤ) :
    laid (first ++ second) separated offset =
      laid first separated offset ++
        laid second (separated || !first.isEmpty) (offset + offsetAfter first) := by
  induction first generalizing separated offset with
  | nil =>
      have hzero : offset + offsetAfter [] = offset := add_zero offset
      rw [hzero, List.isEmpty_nil, Bool.not_true, Bool.or_false]
      rfl
  | cons block blocks ih =>
      have hoffset : offset + textLength block.content + 1 + offsetAfter blocks =
          offset + offsetAfter (block :: blocks) := by
        rw [offsetAfter_cons]
        omega
      rw [List.cons_append, laid, laid, ih, hoffset, List.isEmpty_cons, Bool.not_false,
        Bool.or_true, Bool.true_or, List.append_assoc, List.append_assoc]

theorem inline_eq (node : Inline) : walk.inline node pos =
    { walk with
      segments := walk.segments ++ [node.segment pos walk.cursorText]
      textParts := walk.textParts ++ [node.units]
      cursorText := walk.cursorText + node.units.length } := by
  cases node with
  | text node => rfl
  | hardBreak => rfl
  | customEmoji shortcode => rfl

theorem inlines_eq (nodes : List Inline) : walk.inlines nodes pos =
    { walk with
      segments := walk.segments ++ inlineSegments nodes pos walk.cursorText
      textParts := walk.textParts ++ nodes.map Inline.units
      cursorText := walk.cursorText + textLength nodes } := by
  induction nodes generalizing walk pos with
  | nil => simp [Walk.inlines, inlineSegments, textLength]
  | cons node nodes ih =>
      rw [Walk.inlines, ih, inline_eq, inlineSegments, textLength_cons]
      simp [add_assoc]

/-- What the walk has left behind, with the offset of the next content. -/
structure Walked (walk : Walk) (segments : List Segment) (separated : Bool) (offset : ℤ) :
    Prop where
  segments : walk.segments = segments
  sawLeafBlock : walk.sawLeafBlock = separated
  cursorText : walk.cursorText = offset - if separated then 1 else 0
  length : (walk.textParts.flatten.length : ℤ) = walk.cursorText

theorem Walked.leafBlock {segments : List Segment} {separated : Bool}
    (h : Walked walk segments separated offset) (block : LeafBlock) :
    Walked (walk.leafBlock block.content block.pos)
      (segments ++ laid [block] separated offset) true
        (offset + (textLength block.content + 1)) := by
  have hseparate : (walk.separate block.pos).segments =
        segments ++ (if separated then [.blockBoundary block.pos (offset - 1) offset] else []) ∧
      (walk.separate block.pos).cursorText = offset ∧
      ((walk.separate block.pos).textParts.flatten.length : ℤ) = offset := by
    have hcursor := h.cursorText
    have hlength := h.length
    unfold Walk.separate
    rw [h.sawLeafBlock]
    cases separated with
    | true =>
        simp only [if_true] at hcursor ⊢
        rw [h.segments, List.flatten_append, List.length_append, Int.natCast_add, hlength, hcursor]
        exact ⟨by rw [sub_add_cancel], sub_add_cancel offset 1, sub_add_cancel offset 1⟩
    | false =>
        simp only [Bool.false_eq_true, if_false, sub_zero] at hcursor ⊢
        exact ⟨by rw [h.segments, List.append_nil], hcursor, hlength.trans hcursor⟩
  obtain ⟨hsegments, hcursor, hlength⟩ := hseparate
  have hunits : ((block.content.map Inline.units).flatten.length : ℤ) =
      textLength block.content := by
    rw [textLength, List.flatMap_def]
  unfold Walk.leafBlock
  dsimp only
  rw [inlines_eq]
  constructor
  · dsimp only
    rw [laid, laid, List.append_nil, LeafBlock.segments, ← List.append_assoc, ← hsegments]
    split_ifs with hempty
    · rw [(contentSize_eq_zero_iff block.content).mp hempty, hcursor]
      exact List.append_nil _
    · rw [hcursor]
      rfl
  · dsimp only
    split_ifs
    · rfl
    · rfl
  · rw [apply_ite Walk.cursorText]
    simp only [ite_self, hcursor, if_true]
    omega
  · rw [apply_ite Walk.textParts, apply_ite Walk.cursorText]
    simp only [ite_self, List.flatten_append, List.length_append, Int.natCast_add, hlength, hunits,
      hcursor]

theorem walked_foldl (blocks : List LeafBlock) {segments : List Segment} {separated : Bool}
    (h : Walked walk segments separated offset) :
    Walked (blocks.foldl (fun walk leaf => walk.leafBlock leaf.content leaf.pos) walk)
      (segments ++ laid blocks separated offset) (separated || !blocks.isEmpty)
      (offset + offsetAfter blocks) := by
  induction blocks generalizing walk segments separated offset with
  | nil =>
      have hzero : offset + offsetAfter [] = offset := add_zero offset
      rw [List.isEmpty_nil, Bool.not_true, Bool.or_false, hzero, laid, List.append_nil]
      exact h
  | cons block blocks ih =>
      have hstep := ih (h.leafBlock block)
      rw [List.append_assoc, Bool.true_or, add_assoc, ← offsetAfter_cons] at hstep
      rw [List.isEmpty_cons, Bool.not_false, Bool.or_true]
      have hlaid : laid [block] separated offset ++
          laid blocks true (offset + (textLength block.content + 1)) =
            laid (block :: blocks) separated offset := by
        rw [laid, laid, laid, List.append_nil, List.append_assoc, add_assoc offset]
      rwa [hlaid] at hstep

/-- The segments of a document are those of its leaf blocks. -/
theorem walked_doc (doc : List Block) :
    Walked (walkOf doc) (laid (leafBlocks doc) false 0) (!(leafBlocks doc).isEmpty)
      (offsetAfter (leafBlocks doc)) := by
  have hstart : Walked Walk.start [] false 0 := ⟨rfl, rfl, rfl, rfl⟩
  have hwalked := walked_foldl (leafBlocks doc) hstart
  rw [List.nil_append, Bool.false_or, zero_add] at hwalked
  rw [walkOf, walk_blocks]
  exact hwalked

end Segments

end Buzz.PlainText
