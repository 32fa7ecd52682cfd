import Buzz.Piecewise
import Mathlib.Algebra.BigOperators.Group.List.Basic
import Mathlib.Algebra.Order.Group.Int

/-!
# The plain text of the composer

The document is walked once, and every text node, hard break, emoji, block boundary and empty leaf
block leaves a segment. Positions of the document and offsets of the text are mapped to each other
by the first segment that answers.
-/

namespace Buzz.PlainText

section Document

/-- A text node is never empty. Its text is given by its code units. -/
structure TextNode where
  text : List UInt16
  nonempty : text ≠ []

inductive Inline where
  | text (node : TextNode)
  | hardBreak
  | customEmoji (shortcode : List UInt16)

/-- A leaf block has inline content, a container has blocks, and a rule has no content. -/
inductive Block where
  | leafBlock (content : List Inline)
  | container (children : List Block)
  | horizontalRule

/-- The text of an emoji, `:shortcode:`. -/
def projected (shortcode : List UInt16) : List UInt16 := 58 :: shortcode ++ [58]

def Inline.nodeSize : Inline → ℤ
  | .text node => node.text.length
  | .hardBreak => 1
  | .customEmoji _ => 1

def contentSize (content : List Inline) : ℤ := (content.map Inline.nodeSize).sum

mutual

def Block.nodeSize : Block → ℤ
  | .leafBlock content => contentSize content + 2
  | .container children => blocksSize children + 2
  | .horizontalRule => 1

def blocksSize : List Block → ℤ
  | [] => 0
  | block :: blocks => block.nodeSize + blocksSize blocks

end

inductive Segment where
  | text (pmFrom pmTo textFrom textTo : ℤ)
  | hardBreak (pmFrom pmTo textFrom textTo : ℤ)
  | blockBoundary (pmAt textFrom textTo : ℤ)
  | emptyBlockContent (pmAt textAt : ℤ)
  | atom (pmFrom pmTo textFrom textTo : ℤ)
  deriving DecidableEq, Repr

end Document

section Walk

/-- The variables of the walk. -/
structure Walk where
  segments : List Segment
  textParts : List (List UInt16)
  cursorText : ℤ
  sawLeafBlock : Bool

def Walk.start : Walk := ⟨[], [], 0, false⟩

def Walk.inline (walk : Walk) (node : Inline) (pos : ℤ) : Walk :=
  match node with
  | .text node =>
      { walk with
        segments := walk.segments ++ [.text pos (pos + node.text.length) walk.cursorText
          (walk.cursorText + node.text.length)]
        textParts := walk.textParts ++ [node.text]
        cursorText := walk.cursorText + node.text.length }
  | .hardBreak =>
      { walk with
        segments := walk.segments ++ [.hardBreak pos (pos + 1) walk.cursorText
          (walk.cursorText + 1)]
        textParts := walk.textParts ++ [[10]]
        cursorText := walk.cursorText + 1 }
  | .customEmoji shortcode =>
      { walk with
        segments := walk.segments ++ [.atom pos (pos + 1) walk.cursorText
          (walk.cursorText + (projected shortcode).length)]
        textParts := walk.textParts ++ [projected shortcode]
        cursorText := walk.cursorText + (projected shortcode).length }

def Walk.inlines (walk : Walk) : List Inline → ℤ → Walk
  | [], _ => walk
  | node :: nodes, pos => (walk.inline node pos).inlines nodes (pos + node.nodeSize)

/-- The separator before a leaf block that is not the first. -/
def Walk.separate (walk : Walk) (pos : ℤ) : Walk :=
  if walk.sawLeafBlock then
    { walk with
      segments := walk.segments ++ [.blockBoundary pos walk.cursorText (walk.cursorText + 1)]
      textParts := walk.textParts ++ [[10]]
      cursorText := walk.cursorText + 1 }
  else walk

/-- A leaf block is entered, and its content is walked. -/
def Walk.leafBlock (walk : Walk) (content : List Inline) (pos : ℤ) : Walk :=
  let walk := { walk.separate pos with sawLeafBlock := true }
  let walk :=
    if contentSize content = 0 then
      { walk with
        segments := walk.segments ++ [.emptyBlockContent (pos + 1) walk.cursorText] }
    else walk
  walk.inlines content (pos + 1)

mutual

def Walk.block (walk : Walk) : Block → ℤ → Walk
  | .leafBlock content, pos => walk.leafBlock content pos
  | .container children, pos => walk.blocks children (pos + 1)
  | .horizontalRule, _ => walk

/-- The walk over the children of a node, of which the first is at a position. -/
def Walk.blocks (walk : Walk) : List Block → ℤ → Walk
  | [], _ => walk
  | block :: blocks, pos => (walk.block block pos).blocks blocks (pos + block.nodeSize)

end

end Walk

section Maps

/-- The answer of a segment to a position. -/
def Segment.textOffset? : Segment → ℤ → Option ℤ
  | .text pmFrom pmTo textFrom _, pm =>
      if pm ≤ pmTo then
        if pm ≤ pmFrom then some textFrom else some (textFrom + (pm - pmFrom))
      else none
  | .hardBreak pmFrom pmTo textFrom textTo, pm =>
      if pm ≤ pmFrom then some textFrom else if pm ≤ pmTo then some textTo else none
  | .atom pmFrom pmTo textFrom textTo, pm =>
      if pm ≤ pmFrom then some textFrom else if pm ≤ pmTo then some textTo else none
  | .blockBoundary pmAt textFrom _, pm => if pm ≤ pmAt then some textFrom else none
  | .emptyBlockContent pmAt textAt, pm => if pm ≤ pmAt then some textAt else none

/-- The answer of a segment to an offset. -/
def Segment.position? : Segment → ℤ → Option ℤ
  | .text pmFrom _ textFrom textTo, offset =>
      if offset ≤ textTo then some (pmFrom + (offset - textFrom)) else none
  | .hardBreak pmFrom _ _ textTo, offset => if offset < textTo then some pmFrom else none
  | .atom pmFrom _ _ textTo, offset => if offset < textTo then some pmFrom else none
  | .blockBoundary pmAt _ textTo, offset => if offset < textTo then some pmAt else none
  | .emptyBlockContent pmAt textAt, offset => if offset ≤ textAt then some pmAt else none

/-- The position where the content of a segment begins, which a boundary does not have. -/
def Segment.contentStart? : Segment → Option ℤ
  | .text pmFrom _ _ _ => some pmFrom
  | .hardBreak pmFrom _ _ _ => some pmFrom
  | .atom pmFrom _ _ _ => some pmFrom
  | .emptyBlockContent pmAt _ => some pmAt
  | .blockBoundary _ _ _ => none

/-- The position after a segment. -/
def Segment.pmTo : Segment → ℤ
  | .text _ pmTo _ _ => pmTo
  | .hardBreak _ pmTo _ _ => pmTo
  | .atom _ pmTo _ _ => pmTo
  | .emptyBlockContent pmAt _ => pmAt
  | .blockBoundary pmAt _ _ => pmAt

/-- A position of a document without segments. -/
def emptyPosition (docSize : ℤ) : ℤ := if 0 < docSize then 1 else 0

def mapPMToTextOffset (segments : List Segment) (length : ℤ) (pm : ℤ) : ℤ :=
  if pm ≤ 0 then 0 else Piecewise.first Segment.textOffset? segments length pm

def mapTextOffsetToPM (segments : List Segment) (docSize : ℤ) (offset : ℤ) : ℤ :=
  if offset ≤ 0 then (segments.findSome? Segment.contentStart?).getD (emptyPosition docSize)
  else
    Piecewise.first Segment.position? segments
      ((segments.getLast?.map Segment.pmTo).getD (emptyPosition docSize)) offset

structure PlainTextProjection where
  text : List UInt16
  mapPMToTextOffset : ℤ → ℤ
  mapTextOffsetToPM : ℤ → ℤ

def walkOf (doc : List Block) : Walk := Walk.start.blocks doc 0

def buildPlainTextProjection (doc : List Block) : PlainTextProjection where
  text := (walkOf doc).textParts.flatten
  mapPMToTextOffset :=
    PlainText.mapPMToTextOffset (walkOf doc).segments (walkOf doc).textParts.flatten.length
  mapTextOffsetToPM := PlainText.mapTextOffsetToPM (walkOf doc).segments (blocksSize doc)

end Maps

end Buzz.PlainText
