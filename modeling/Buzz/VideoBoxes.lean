import Buzz.MediaCheck

/-!
# The boxes of an MP4 file

Two walkers over one file. The first looks at the top level only and stops at the first box that it
cannot size; the second goes into the containers and refuses such a box. Both also return the boxes
that they visited, which the source does not. Where both accept, the second has visited the boxes of
a tiling and the first the same ones.

The first walker adds a size to an offset before it compares the sum with the file, and a size of
64 bits can be as large as it likes.
-/

namespace Buzz.Media

open ByteTiling (beNat range Tiled)

/-- A file is shorter than the offsets of its system. -/
structure VideoFile where
  bytes : List UInt8
  length_lt : bytes.length < 2 ^ 63

structure BoxPlace where
  offset : ℕ
  kind : List UInt8
  deriving DecidableEq, Repr

section AtomCode

def maxAtoms : ℕ := 1024

/-- A box with its size, or what the walker says where it has none. -/
inductive AtomSize where
  | size (n : ℕ)
  | last (result : Check Unit)

def atomSize (bytes : List UInt8) (offset compact : ℕ) (fourcc : List UInt8) (moovSeen : Bool) :
    AtomSize :=
  if compact = 1 then
    match range bytes (offset + 8) 8 with
    | none => .last (.ok ())
    | some ext => if beNat ext < 16 then .last (.ok ()) else .size (beNat ext)
  else if compact = 0 then
    if fourcc = ascii "mdat" ∧ moovSeen = false then .last (refuse .moovNotAtFront)
    else .last (.ok ())
  else if compact < 8 then .last (.ok ())
  else .size compact

/-- The loop, with the number of atoms that it may still scan. -/
def walkAtoms (bytes : List UInt8) : ℕ → ℕ → Bool → List BoxPlace × Check Unit
  | 0, offset, _ => ([], if offset < bytes.length then refuse .moovNotAtFront else .ok ())
  | left + 1, offset, moovSeen =>
      if offset < bytes.length then
        match range bytes offset 8 with
        | none => ([], .ok ())
        | some header =>
            let fourcc := header.drop 4
            match atomSize bytes offset (beNat (header.take 4)) fourcc moovSeen with
            | .last result => ([⟨offset, fourcc⟩], result)
            | .size size =>
                if fourcc = ascii "mdat" ∧ moovSeen = false then
                  ([⟨offset, fourcc⟩], refuse .moovNotAtFront)
                else if 2 ^ 64 ≤ offset + size then ([⟨offset, fourcc⟩], .error .overflow)
                else
                  let rest := walkAtoms bytes left (offset + size)
                    (moovSeen || fourcc == ascii "moov")
                  (⟨offset, fourcc⟩ :: rest.1, rest.2)
      else ([], .ok ())

def checkMoovBeforeMdat (file : VideoFile) : List BoxPlace × Check Unit :=
  walkAtoms file.bytes maxAtoms 0 false

end AtomCode

section BoxCode

def maxBoxes : ℕ := 100000

def maxBoxDepth : ℕ := 32

def emptyFfmpegUdta : List UInt8 :=
  [0, 0, 0, 0x35] ++ ascii "meta" ++ [0, 0, 0, 0, 0, 0, 0, 0x21] ++ ascii "hdlr" ++
    [0, 0, 0, 0, 0, 0, 0, 0] ++ ascii "mdirappl" ++ [0, 0, 0, 0, 0, 0, 0, 0, 0, 0, 0, 0, 8] ++
    ascii "ilst"

def forbiddenBoxes : List (List UInt8) :=
  [ascii "meta", ascii "ilst", ascii "keys", ascii "data", ascii "uuid", ascii "xml ",
    ascii "bxml", ascii "loci", 0xa9 :: ascii "xyz", ascii "name", ascii "chap"]

def containers : List (List UInt8) :=
  [ascii "moov", ascii "trak", ascii "mdia", ascii "minf", ascii "stbl", ascii "edts",
    ascii "dinf", ascii "sinf", ascii "schi"]

def allowedBoxes : List (List UInt8) :=
  [ascii "ftyp", ascii "moov", ascii "mdat", ascii "free", ascii "skip", ascii "wide",
    ascii "trak", ascii "mdia", ascii "minf", ascii "stbl", ascii "edts", ascii "dinf",
    ascii "sinf", ascii "schi", ascii "udta", ascii "mvhd", ascii "tkhd", ascii "mdhd",
    ascii "hdlr", ascii "vmhd", ascii "smhd", ascii "dref", ascii "url ", ascii "urn ",
    ascii "stsd", ascii "stts", ascii "stss", ascii "ctts", ascii "stsc", ascii "stsz",
    ascii "stco", ascii "co64", ascii "sgpd", ascii "sbgp", ascii "elst"]

/-- The size of a box and of its header. -/
def boxSize (bytes : List UInt8) (off stop compact : ℕ) : Check (ℕ × ℕ) :=
  if compact = 1 then
    match range bytes (off + 8) 8 with
    | none => refuse .invalidVideo
    | some ext => .ok (beNat ext, 16)
  else if compact = 0 then .ok (stop - off, 8)
  else .ok (compact, 8)

/-- A `udta` box has the one body that an encoder writes on its own. -/
def checkUdta (bytes : List UInt8) (off size header : ℕ) : Check Unit :=
  if size ≠ header + emptyFfmpegUdta.length then refuse .metadataForbidden
  else
    match range bytes (off + header) emptyFfmpegUdta.length with
    | none => refuse .invalidVideo
    | some body => if body ≠ emptyFfmpegUdta then refuse .metadataForbidden else .ok ()

theorem boxSize_header {bytes : List UInt8} {off stop compact size header : ℕ}
    (h : boxSize bytes off stop compact = .ok (size, header)) : 8 ≤ header := by
  unfold boxSize at h
  split at h
  · split at h
    · cases h
    · cases h
      omega
  · split at h
    · cases h
      omega
    · cases h
      omega

/-- The boxes from `off` to `stop`; the number of boxes so far goes in and comes back. -/
def walkBoxes (bytes : List UInt8) (off stop count depth : ℕ) : List BoxPlace × Check ℕ :=
  -- one test for a whole level: the loop leaves the depth as it is
  if maxBoxDepth < depth then ([], refuse .invalidVideo)
  else if off < stop then
    if maxBoxes < count + 1 ∨ stop - off < 8 then ([], refuse .invalidVideo)
    else
      match range bytes off 8 with
      | none => ([], refuse .invalidVideo)
      | some header =>
          let kind := header.drop 4
          match _hsize : boxSize bytes off stop (beNat (header.take 4)) with
          | .error e => ([⟨off, kind⟩], .error e)
          | .ok (size, headerLen) =>
              if size < headerLen ∨ ¬(off + size < 2 ^ 64 ∧ off + size ≤ stop) then
                ([⟨off, kind⟩], refuse .invalidVideo)
              else if kind ∈ forbiddenBoxes ∨ kind ∉ allowedBoxes then
                ([⟨off, kind⟩], refuse .metadataForbidden)
              else
                let after : Check ℕ :=
                  if kind = ascii "udta" then
                    match checkUdta bytes off size headerLen with
                    | .error e => .error e
                    | .ok () => .ok (count + 1)
                  else if kind ∈ containers then
                    (walkBoxes bytes (off + headerLen) (off + size) (count + 1) (depth + 1)).2
                  else .ok (count + 1)
                match after with
                | .error e => ([⟨off, kind⟩], .error e)
                | .ok count =>
                    let rest := walkBoxes bytes (off + size) stop count depth
                    (⟨off, kind⟩ :: rest.1, rest.2)
  else ([], .ok count)
termination_by stop - off
decreasing_by
  · have := boxSize_header _hsize
    omega
  · have := boxSize_header _hsize
    omega

def validateMp4MetadataFree (file : VideoFile) : List BoxPlace × Check ℕ :=
  walkBoxes file.bytes 0 file.bytes.length 0 0

end BoxCode

section BoxGrammar

/-- Where a box has its kind, its size and the size of its header; a size of zero goes to the end of
what the box is in. -/
inductive BoxHead (bytes : List UInt8) (off stop : ℕ) (kind : List UInt8) : ℕ → ℕ → Prop where
  | compact {size : List UInt8} : range bytes off 8 = some (size ++ kind) → size.length = 4 →
      8 ≤ beNat size → BoxHead bytes off stop kind (beNat size) 8
  | extended {size ext : List UInt8} : range bytes off 8 = some (size ++ kind) → size.length = 4 →
      beNat size = 1 → range bytes (off + 8) 8 = some ext → 16 ≤ beNat ext →
      BoxHead bytes off stop kind (beNat ext) 16
  | toEnd {size : List UInt8} : range bytes off 8 = some (size ++ kind) → size.length = 4 →
      beNat size = 0 → off + 8 ≤ stop → BoxHead bytes off stop kind (stop - off) 8

/-- The bytes from one place to another are boxes of the allowed kinds, one after the other, and
what a container has in it is again. -/
inductive BoxesTile (bytes : List UInt8) : ℕ → ℕ → List BoxPlace → Prop where
  | nil (stop : ℕ) : BoxesTile bytes stop stop []
  | cons {off stop size header : ℕ} {kind : List UInt8} {children boxes : List BoxPlace} :
      BoxHead bytes off stop kind size header → off + size ≤ stop → kind ∈ allowedBoxes →
      (kind = ascii "udta" → range bytes (off + header) (size - header) = some emptyFfmpegUdta) →
      (kind ∈ containers → BoxesTile bytes (off + header) (off + size) children) →
      BoxesTile bytes (off + size) stop boxes →
      BoxesTile bytes off stop (⟨off, kind⟩ :: boxes)

/-- No `mdat` before the first `moov`. -/
def MoovFirst (boxes : List BoxPlace) : Prop :=
  ∀ before box after, boxes = before ++ box :: after → box.kind = ascii "mdat" →
    ∃ moov ∈ before, moov.kind = ascii "moov"

end BoxGrammar

section BoxWalk

variable {bytes kind : List UInt8} {off stop count depth n size header : ℕ}

theorem range_width {piece : List UInt8} {i k : ℕ} (h : range bytes i k = some piece) :
    piece.length = k ∧ i + k ≤ bytes.length := by
  unfold range at h
  split at h
  · cases h
    refine ⟨?_, by assumption⟩
    rw [List.length_take, List.length_drop]
    omega
  · cases h

/-- A header of eight bytes is a size and a kind. -/
theorem boxHead_of_boxSize {head : List UInt8} (hhead : range bytes off 8 = some head)
    (h : boxSize bytes off stop (beNat (head.take 4)) = .ok (size, header)) (hsize : header ≤ size)
    (hroom : 8 ≤ stop - off) : BoxHead bytes off stop (head.drop 4) size header := by
  obtain ⟨hwidth, -⟩ := range_width hhead
  have hsplit : range bytes off 8 = some (head.take 4 ++ head.drop 4) := by
    rw [List.take_append_drop, hhead]
  have hsizeWidth : (head.take 4).length = 4 := by
    rw [List.length_take]
    omega
  unfold boxSize at h
  split at h
  · next hone =>
      split at h
      · cases h
      · next hext =>
          cases h
          exact .extended hsplit hsizeWidth hone hext hsize
  · split at h
    · next hzero =>
        cases h
        exact .toEnd hsplit hsizeWidth hzero (by omega)
    · cases h
      exact .compact hsplit hsizeWidth hsize

theorem boxHead_header (h : BoxHead bytes off stop kind size header) : 8 ≤ header ∧ header ≤ size ∨
    8 ≤ header ∧ size = stop - off := by
  cases h with
  | compact _ _ hsize => exact .inl ⟨le_rfl, hsize⟩
  | extended _ _ _ _ hsize => exact .inl ⟨by omega, hsize⟩
  | toEnd => exact .inr ⟨le_rfl, rfl⟩

theorem checkUdta_ok (h : checkUdta bytes off size header = .ok ()) :
    range bytes (off + header) (size - header) = some emptyFfmpegUdta := by
  unfold checkUdta at h
  split at h
  · cases h
  · next hsize =>
      split at h
      · cases h
      · next body hbody =>
          split at h
          · cases h
          · next hsame =>
              rw [not_not] at hsize hsame
              rw [hsize, Nat.add_sub_cancel_left, hbody, hsame]

/-- What an accepted level begins with. -/
theorem walkBoxes_cases (h : (walkBoxes bytes off stop count depth).2 = .ok n) (hoff : off ≤ stop) :
    (off = stop ∧ (walkBoxes bytes off stop count depth).1 = []) ∨
      ∃ kind size header count', BoxHead bytes off stop kind size header ∧ header ≤ size ∧
        off + size ≤ stop ∧ kind ∈ allowedBoxes ∧
        (kind = ascii "udta" →
          range bytes (off + header) (size - header) = some emptyFfmpegUdta) ∧
        (kind ∈ containers → ∃ m,
          (walkBoxes bytes (off + header) (off + size) (count + 1) (depth + 1)).2 = .ok m) ∧
        (walkBoxes bytes (off + size) stop count' depth).2 = .ok n ∧
        (walkBoxes bytes off stop count depth).1 =
          ⟨off, kind⟩ :: (walkBoxes bytes (off + size) stop count' depth).1 := by
  generalize hwalk : walkBoxes bytes off stop count depth = walked at *
  rw [walkBoxes] at hwalk
  split at hwalk
  · subst hwalk
    cases h
  · split at hwalk
    · split at hwalk
      · subst hwalk
        cases h
      · next hroom =>
          split at hwalk
          · subst hwalk
            cases h
          · next head hhead =>
              simp only at hwalk
              split at hwalk
              · subst hwalk
                cases h
              · next size header hsize =>
                  split at hwalk
                  · subst hwalk
                    cases h
                  · next hfits =>
                      rw [not_or, not_not, Nat.not_lt] at hfits
                      rw [not_or, Nat.not_lt, Nat.not_lt] at hroom
                      split at hwalk
                      · subst hwalk
                        cases h
                      · next hkind =>
                          rw [not_or, not_not] at hkind
                          split at hwalk
                          · subst hwalk
                            cases h
                          · next count' hafter =>
                              subst hwalk
                              refine .inr ⟨head.drop 4, size, header, count',
                                boxHead_of_boxSize hhead hsize hfits.1 hroom.2, hfits.1, hfits.2.2,
                                hkind.2, fun hudta => ?_, fun hcontainer => ?_, h, rfl⟩
                              · rw [if_pos hudta] at hafter
                                split at hafter
                                · cases hafter
                                · next hbody => exact checkUdta_ok hbody
                              · have hnotUdta : head.drop 4 ≠ ascii "udta" := fun hudta =>
                                  absurd (hudta ▸ hcontainer) (by decide)
                                rw [if_neg hnotUdta, if_pos hcontainer] at hafter
                                exact ⟨_, hafter⟩
    · subst hwalk
      exact .inl ⟨by omega, rfl⟩

/-- What the second walker accepts is tiled by the boxes that it visited. -/
theorem walkBoxes_tile (h : (walkBoxes bytes off stop count depth).2 = .ok n) (hoff : off ≤ stop) :
    BoxesTile bytes off stop (walkBoxes bytes off stop count depth).1 := by
  induction hm : stop - off using Nat.strong_induction_on generalizing off stop count depth n with
  | _ m ih =>
      rcases walkBoxes_cases h hoff with ⟨rfl, hnil⟩ |
        ⟨kind, size, header, count', hhead, hheader, hstop, hallowed, hudta, hchildren, hrest,
          hvisited⟩
      · rw [hnil]
        exact .nil off
      · have hpos : 8 ≤ header := by
          rcases boxHead_header hhead with h | h <;> exact h.1
        have hinside : kind ∈ containers → BoxesTile bytes (off + header) (off + size)
            (walkBoxes bytes (off + header) (off + size) (count + 1) (depth + 1)).1 := by
          intro hcontainer
          obtain ⟨k, hk⟩ := hchildren hcontainer
          exact ih (off + size - (off + header)) (by omega) hk (by omega) rfl
        have hafter := ih (stop - (off + size)) (by omega) hrest hstop rfl
        rw [hvisited]
        exact .cons hhead hstop hallowed hudta hinside hafter

end BoxWalk

section AtomWalk

variable {bytes kind : List UInt8} {off stop left size header : ℕ} {moovSeen : Bool}
variable {boxes : List BoxPlace}

theorem moovFirst_cons {place : BoxPlace} (hplace : place.kind ≠ ascii "mdat")
    (h : place.kind = ascii "moov" ∨ MoovFirst boxes) : MoovFirst (place :: boxes) := by
  intro before box after heq hbox
  cases before with
  | nil =>
      rw [List.nil_append] at heq
      exact absurd ((List.cons.inj heq).1 ▸ hbox) hplace
  | cons first before =>
      obtain ⟨rfl, hrest⟩ := List.cons.inj heq
      rcases h with hmoov | hfirst
      · exact ⟨_, List.mem_cons_self .., hmoov⟩
      · obtain ⟨moov, hmem, hmoov⟩ := hfirst before box after hrest hbox
        exact ⟨moov, List.mem_cons_of_mem _ hmem, hmoov⟩

theorem boxesTile_end (h : BoxesTile bytes stop stop boxes) : boxes = [] := by
  cases h with
  | nil => rfl
  | cons hhead hstop _ _ _ _ =>
      cases hhead with
      | compact | extended | toEnd => omega

theorem moovFirst_nil : MoovFirst [] := fun _ _ _ heq =>
  absurd heq.symm (List.append_ne_nil_of_right_ne_nil _ (List.cons_ne_nil _ _))

/-- What the first walker does behind the eight bytes that it reads. -/
theorem walkAtoms_of_range {sizeBytes : List UInt8}
    (hrange : range bytes off 8 = some (sizeBytes ++ kind)) (hwidth : sizeBytes.length = 4) :
    walkAtoms bytes (left + 1) off moovSeen =
      match atomSize bytes off (beNat sizeBytes) kind moovSeen with
      | .last result => ([⟨off, kind⟩], result)
      | .size size =>
          if kind = ascii "mdat" ∧ moovSeen = false then ([⟨off, kind⟩], refuse .moovNotAtFront)
          else if 2 ^ 64 ≤ off + size then ([⟨off, kind⟩], .error .overflow)
          else
            (⟨off, kind⟩ ::
                (walkAtoms bytes left (off + size) (moovSeen || kind == ascii "moov")).1,
              (walkAtoms bytes left (off + size) (moovSeen || kind == ascii "moov")).2) := by
  obtain ⟨-, hroom⟩ := range_width hrange
  have htake : (sizeBytes ++ kind).take 4 = sizeBytes := by rw [← hwidth, List.take_left]
  have hdrop : (sizeBytes ++ kind).drop 4 = kind := by rw [← hwidth, List.drop_left]
  rw [walkAtoms, if_pos (by omega), hrange]
  simp only [htake, hdrop]

/-- The first walker sizes a box as the second does, or knows that it is the last. -/
theorem boxHead_sized (hhead : BoxHead bytes off stop kind size header) :
    ∃ sizeBytes, range bytes off 8 = some (sizeBytes ++ kind) ∧ sizeBytes.length = 4 ∧
      ((∀ moovSeen, atomSize bytes off (beNat sizeBytes) kind moovSeen = .size size) ∨
        (size = stop - off ∧ ∀ moovSeen, atomSize bytes off (beNat sizeBytes) kind moovSeen =
          .last (if kind = ascii "mdat" ∧ moovSeen =
            false then refuse .moovNotAtFront else .ok ()))) := by
  cases hhead with
  | @compact sizeBytes hrange hwidth hsize =>
      refine ⟨_, hrange, hwidth, .inl fun moovSeen => ?_⟩
      rw [atomSize, if_neg (by omega), if_neg (by omega), if_neg (by omega)]
  | @extended sizeBytes ext hrange hwidth hone hext hsize =>
      refine ⟨_, hrange, hwidth, .inl fun moovSeen => ?_⟩
      rw [atomSize, if_pos hone, hext]
      simp only
      rw [if_neg (by omega)]
  | @toEnd sizeBytes hrange hwidth hzero hroom =>
      refine ⟨_, hrange, hwidth, .inr ⟨rfl, fun moovSeen => ?_⟩⟩
      rw [atomSize, if_neg (by omega), if_pos hzero]
      split_ifs <;> rfl

/-- Along a tiling of the whole file the first walker sees the same boxes. -/
theorem walkAtoms_tile (htile : BoxesTile bytes off stop boxes) (hstop : stop = bytes.length)
    (hlength : bytes.length < 2 ^ 64) (h : (walkAtoms bytes left off moovSeen).2 = .ok ()) :
    (walkAtoms bytes left off moovSeen).1 = boxes ∧ (moovSeen = true ∨ MoovFirst boxes) := by
  induction htile generalizing left moovSeen with
  | nil stop =>
      subst hstop
      refine ⟨?_, .inr moovFirst_nil⟩
      cases left with
      | zero => rfl
      | succ left => rw [walkAtoms, if_neg (by omega)]
  | @cons off stop size header kind children boxes hhead hroom hallowed hudta hchildren hrest
      _ ih =>
      subst hstop
      obtain ⟨sizeBytes, hrange, hwidth, hsized⟩ := boxHead_sized hhead
      obtain ⟨-, hlt⟩ := range_width hrange
      cases left with
      | zero =>
          rw [walkAtoms, if_pos (by omega)] at h
          cases h
      | succ left =>
          rw [walkAtoms_of_range hrange hwidth] at h ⊢
          rcases hsized with hsize | ⟨hend, hlast⟩
          · rw [hsize] at h ⊢
            simp only at h ⊢
            split at h
            · cases h
            · next hmdat =>
                rw [if_neg (by omega)] at h
                rw [if_neg hmdat, if_neg (by omega)]
                obtain ⟨hvisited, hfirst⟩ := ih rfl h
                refine ⟨by rw [hvisited], ?_⟩
                cases moovSeen with
                | true => exact .inl rfl
                | false =>
                    rw [Bool.false_or, beq_iff_eq] at hfirst
                    exact .inr (moovFirst_cons (fun hkind => hmdat ⟨hkind, rfl⟩) hfirst)
          · rw [hlast] at h ⊢
            simp only at h ⊢
            have hnil : boxes = [] := by
              rw [hend, show off + (bytes.length - off) = bytes.length by omega] at hrest
              exact boxesTile_end hrest
            subst hnil
            refine ⟨rfl, ?_⟩
            split at h
            · cases h
            · next hmdat =>
                cases moovSeen with
                | true => exact .inl rfl
                | false =>
                    exact .inr (moovFirst_cons (fun hkind => hmdat ⟨hkind, rfl⟩)
                      (.inr moovFirst_nil))

end AtomWalk

section Overflow

/-- A top-level box as the first walker reads it, when all of it is there. -/
structure Atom where
  compact : List UInt8
  fourcc : List UInt8
  ext : List UInt8
  body : List UInt8

namespace Atom

def encode (atom : Atom) : List UInt8 := atom.compact ++ atom.fourcc ++ atom.ext ++ atom.body

structure Fits (atom : Atom) : Prop where
  compactWidth : atom.compact.length = 4
  fourccWidth : atom.fourcc.length = 4
  size : (8 ≤ beNat atom.compact ∧ atom.ext = [] ∧ beNat atom.compact = 8 + atom.body.length) ∨
    (beNat atom.compact = 1 ∧ atom.ext.length = 8 ∧ beNat atom.ext = 16 + atom.body.length)

end Atom

/-- There are atoms left to scan, and this one is no `mdat` before the first `moov`. -/
def InOrder (s : ℕ × Bool) (fourcc : List UInt8) : Prop :=
  0 < s.1 ∧ (fourcc = ascii "mdat" → s.2 = true)

def atomNext (s : ℕ × Bool) (atom : Atom) : ℕ × Bool :=
  (s.1 - 1, s.2 || atom.fourcc == ascii "moov")

/-- The header of an atom whose extended size does not fit the 64-bit word behind its offset. -/
def HugeAt (length : ℕ) (s : ℕ × Bool) (text : List UInt8) : Prop :=
  ∃ compact fourcc ext rest, text = compact ++ fourcc ++ ext ++ rest ∧ compact.length = 4 ∧
    fourcc.length = 4 ∧ ext.length = 8 ∧ beNat compact = 1 ∧ InOrder s fourcc ∧
    2 ^ 64 ≤ length - text.length + beNat ext

/-- A file in which such a header stands behind whole atoms. -/
def DeclaresHuge (file : VideoFile) : Prop :=
  ∃ atoms, Tiled Atom.encode atomNext (fun s atom _ => atom.Fits ∧ InOrder s atom.fourcc)
    (HugeAt file.bytes.length) (maxAtoms, false) atoms file.bytes

variable {bytes rest kind : List UInt8} {off left : ℕ} {moovSeen : Bool} {atom : Atom}

theorem atom_append (atom : Atom) (rest : List UInt8) :
    atom.encode ++ rest = (atom.compact ++ atom.fourcc) ++ (atom.ext ++ (atom.body ++ rest)) := by
  simp only [Atom.encode, List.append_assoc]

theorem atom_encode_ne_nil (h : atom.Fits) : atom.encode ≠ [] := by
  rw [← List.length_pos_iff]
  have := h.compactWidth
  simp only [Atom.encode, List.length_append]
  omega

theorem range_of_drop {piece : List UInt8} {i n : ℕ} (h : bytes.drop i = piece ++ rest)
    (hi : i ≤ bytes.length) (hn : piece.length = n) : range bytes i n = some piece :=
  ByteTiling.range_eq_some.mpr ⟨hn, rest, h, hi⟩

theorem walkAtoms_beyond (h : bytes.length ≤ off) :
    (walkAtoms bytes left off moovSeen).2 = .ok () := by
  cases left with
  | zero | succ left => rw [walkAtoms, if_neg (by omega)]

theorem Atom.Fits.length (h : atom.Fits) :
    atom.encode.length = 8 + atom.ext.length + atom.body.length := by
  have := h.compactWidth
  have := h.fourccWidth
  simp only [Atom.encode, List.length_append]
  omega

/-- A whole atom is passed. -/
theorem walkAtoms_atom (hfits : atom.Fits) (horder : InOrder (left + 1, moovSeen) atom.fourcc)
    (h : bytes.drop off = atom.encode ++ rest) (hlength : bytes.length < 2 ^ 64)
    (hoff : off ≤ bytes.length) :
    (walkAtoms bytes (left + 1) off moovSeen).2 =
      (walkAtoms bytes left (off + atom.encode.length)
        (moovSeen || atom.fourcc == ascii "moov")).2 := by
  have htext := congrArg List.length h
  rw [List.length_drop, List.length_append, hfits.length] at htext
  have hmdat : ¬(atom.fourcc = ascii "mdat" ∧ moovSeen = false) := by
    rintro ⟨hkind, rfl⟩
    exact Bool.false_ne_true (horder.2 hkind)
  rw [atom_append] at h
  have hwidth : (atom.compact ++ atom.fourcc).length = 8 := by
    rw [List.length_append, hfits.compactWidth, hfits.fourccWidth]
  have hsize : atomSize bytes off (beNat atom.compact) atom.fourcc moovSeen =
      .size atom.encode.length := by
    have hext := drop_add_length h
    rw [hwidth] at hext
    rcases hfits.size with ⟨hlarge, hnil, hsize⟩ | ⟨hone, hextWidth, hsize⟩
    · rw [atomSize, if_neg (by omega), if_neg (by omega), if_neg (by omega), hfits.length,
        hnil, hsize, List.length_nil]
    · rw [atomSize, if_pos hone, range_of_drop hext (by omega) hextWidth]
      simp only
      rw [if_neg (by omega), hfits.length, hextWidth, hsize]
  rw [walkAtoms_of_range (range_of_drop h hoff hwidth) hfits.compactWidth, hsize]
  simp only
  rw [if_neg hmdat, if_neg (by rw [hfits.length]; omega)]

theorem walkAtoms_huge {s : ℕ × Bool} (h : HugeAt bytes.length s (bytes.drop off))
    (hoff : off ≤ bytes.length) (hlength : bytes.length < 2 ^ 63) :
    (walkAtoms bytes s.1 off s.2).2 = .error .overflow := by
  obtain ⟨compact, fourcc, ext, rest, htext, hcompact, hfourcc, hext, hone, horder, hhuge⟩ := h
  obtain ⟨_ | left, moovSeen⟩ := s
  · exact absurd horder.1 (Nat.lt_irrefl 0)
  · have hmdat : ¬(fourcc = ascii "mdat" ∧ moovSeen = false) := by
      rintro ⟨hkind, rfl⟩
      exact Bool.false_ne_true (horder.2 hkind)
    have hwidth : (compact ++ fourcc).length = 8 := by
      rw [List.length_append, hcompact, hfourcc]
    rw [List.append_assoc] at htext
    have hextPlace := drop_add_length htext
    rw [hwidth] at hextPlace
    rw [List.length_drop] at hhuge
    have hroom := congrArg List.length htext
    simp only [List.length_drop, List.length_append, hcompact, hfourcc, hext] at hroom
    have hsize : atomSize bytes off (beNat compact) fourcc moovSeen = .size (beNat ext) := by
      rw [atomSize, if_pos hone, range_of_drop hextPlace (by omega) hext]
      simp only
      rw [if_neg (by omega)]
    rw [walkAtoms_of_range (range_of_drop htext hoff hwidth) hcompact, hsize]
    simp only
    rw [if_neg hmdat, if_pos (by omega)]

/-- The walker has a size for a compact box that holds its header, and for an extended one. -/
theorem atomSize_cases {compact n : ℕ} (h : atomSize bytes off compact kind moovSeen = .size n) :
    (8 ≤ compact ∧ n = compact) ∨
      compact = 1 ∧ ∃ ext, range bytes (off + 8) 8 = some ext ∧ n = beNat ext ∧ 16 ≤ n := by
  unfold atomSize at h
  split at h
  · next hone =>
      split at h
      · cases h
      · next ext hext =>
          split at h
          · cases h
          · cases h
            exact .inr ⟨hone, ext, hext, rfl, by omega⟩
  · split at h
    · split at h <;> cases h
    · split at h
      · cases h
      · cases h
        exact .inl ⟨by omega, rfl⟩

theorem atomSize_last {compact : ℕ} {result : Check Unit}
    (h : atomSize bytes off compact kind moovSeen = .last result) : result ≠ .error .overflow := by
  unfold atomSize at h
  intro hoverflow
  subst hoverflow
  split at h
  · split at h
    · cases h
    · split at h <;> cases h
  · split at h
    · split at h <;> cases h
    · split at h <;> cases h

/-- A sum that overflows is the one at a huge header, or behind a whole atom. -/
theorem overflow_cases {s : ℕ × Bool} (hlength : bytes.length < 2 ^ 63)
    (h : (walkAtoms bytes s.1 off s.2).2 = .error .overflow) :
    HugeAt bytes.length s (bytes.drop off) ∨
      ∃ atom rest, bytes.drop off = Atom.encode atom ++ rest ∧ atom.Fits ∧
        InOrder s atom.fourcc := by
  obtain ⟨_ | left, moovSeen⟩ := s
  · rw [walkAtoms] at h
    split at h
    · cases h
    · cases h
  · cases hhead : range bytes off 8 with
    | none =>
        rw [walkAtoms, hhead] at h
        split at h
        · cases h
        · cases h
    | some head =>
        obtain ⟨hwidth, hroom⟩ := range_width hhead
        obtain ⟨compact, fourcc, rfl, hcompact⟩ : ∃ compact fourcc, head = compact ++ fourcc ∧
            compact.length = 4 :=
          ⟨head.take 4, head.drop 4, (List.take_append_drop 4 head).symm,
            by rw [List.length_take]; omega⟩
        rw [List.length_append, hcompact] at hwidth
        rw [walkAtoms_of_range hhead hcompact] at h
        cases hsize : atomSize bytes off (beNat compact) fourcc moovSeen with
        | last result =>
            rw [hsize] at h
            exact absurd h (atomSize_last hsize)
        | size n =>
            rw [hsize] at h
            simp only at h
            split at h
            · cases h
            · next hmdat =>
                have horder : InOrder (left + 1, moovSeen) fourcc :=
                  ⟨Nat.succ_pos left, fun hkind => by
                  cases moovSeen with
                  | true => rfl
                  | false => exact absurd ⟨hkind, rfl⟩ hmdat⟩
                obtain ⟨-, rest, htext, -⟩ := ByteTiling.range_eq_some.mp hhead
                have hrest := drop_add_length htext
                have hfourcc : fourcc.length = 4 := by omega
                rw [List.length_append, hcompact, hwidth] at hrest
                rcases atomSize_cases hsize with ⟨hlarge, rfl⟩ | ⟨hone, ext, hext, rfl, hlarge⟩
                · have hsmall : beNat compact < 256 ^ 4 := hcompact ▸ ByteTiling.beNat_lt compact
                  rw [if_neg (by omega)] at h
                  have hfit : off + beNat compact < bytes.length := by
                    by_contra hnot
                    rw [walkAtoms_beyond (Nat.not_lt.mp hnot)] at h
                    cases h
                  obtain ⟨body, hbody, hbodyEq⟩ := exists_take bytes (i := off + 8)
                    (k := beNat compact - 8) (by omega)
                  have hsizeEq : beNat compact = 8 + body.length := by omega
                  refine .inr ⟨⟨compact, fourcc, [], body⟩,
                    bytes.drop (off + 8 + (beNat compact - 8)),
                    htext.trans ?_, ⟨hcompact, hfourcc, .inl ⟨hlarge, rfl, hsizeEq⟩⟩, horder⟩
                  rw [atom_append, ← hrest, hbodyEq]
                  rfl
                · obtain ⟨hextWidth, afterExt, hextEq, -⟩ := ByteTiling.range_eq_some.mp hext
                  have hafterExt := drop_add_length hextEq
                  rw [hextWidth] at hafterExt
                  rw [← hrest, hextEq] at htext
                  by_cases hhuge : 2 ^ 64 ≤ off + beNat ext
                  · refine .inl ⟨compact, fourcc, ext, afterExt, ?_, hcompact, hfourcc, hextWidth,
                      hone, horder, ?_⟩
                    · rw [htext, List.append_assoc (compact ++ fourcc)]
                    · rw [List.length_drop]
                      omega
                  · rw [if_neg hhuge] at h
                    have hfit : off + beNat ext < bytes.length := by
                      by_contra hnot
                      rw [walkAtoms_beyond (Nat.not_lt.mp hnot)] at h
                      cases h
                    obtain ⟨body, hbody, hbodyEq⟩ := exists_take bytes (i := off + 8 + 8)
                      (k := beNat ext - 16) (by omega)
                    have hsizeEq : beNat ext = 16 + body.length := by omega
                    refine .inr ⟨⟨compact, fourcc, ext, body⟩,
                      bytes.drop (off + 8 + 8 + (beNat ext - 16)), htext.trans ?_,
                      ⟨hcompact, hfourcc, .inr ⟨hone, hextWidth, hsizeEq⟩⟩, horder⟩
                    rw [atom_append, ← hafterExt, hbodyEq]

theorem walkAtoms_overflow_step (hlength : bytes.length < 2 ^ 63) (hoff : off ≤ bytes.length)
    (s : ℕ × Bool) :
    (walkAtoms bytes s.1 off s.2).2 = .error .overflow ↔
      HugeAt bytes.length s (bytes.drop off) ∨
        ∃ atom rest, bytes.drop off = Atom.encode atom ++ rest ∧
          (atom.Fits ∧ InOrder s atom.fourcc) ∧
          (walkAtoms bytes (atomNext s atom).1 (off + atom.encode.length) (atomNext s atom).2).2 =
            .error .overflow := by
  have hpass : ∀ {atom rest}, bytes.drop off = Atom.encode atom ++ rest → atom.Fits →
      InOrder s atom.fourcc → (walkAtoms bytes s.1 off s.2).2 =
        (walkAtoms bytes (atomNext s atom).1 (off + atom.encode.length) (atomNext s atom).2).2 := by
    intro atom rest heq hfits horder
    obtain ⟨_ | left, moovSeen⟩ := s
    · exact absurd horder.1 (Nat.lt_irrefl 0)
    · exact walkAtoms_atom hfits horder heq (by omega) hoff
  constructor
  · intro h
    rcases overflow_cases hlength h with hhuge | ⟨atom, rest, heq, hfits, horder⟩
    · exact .inl hhuge
    · exact .inr ⟨atom, rest, heq, ⟨hfits, horder⟩, hpass heq hfits horder ▸ h⟩
  · rintro (hhuge | ⟨atom, rest, heq, ⟨hfits, horder⟩, h⟩)
    · exact walkAtoms_huge hhuge hoff hlength
    · rw [hpass heq hfits horder, h]

theorem overflow_iff (file : VideoFile) :
    (checkMoovBeforeMdat file).2 = .error .overflow ↔ DeclaresHuge file := by
  have hiff := @ByteTiling.accepts_iff_tiled _ _ _ Atom.encode atomNext
    (fun s atom _ => Atom.Fits atom ∧ InOrder s atom.fourcc) (HugeAt file.bytes.length) file.bytes
    (fun off (s : ℕ × Bool) => (walkAtoms file.bytes s.1 off s.2).2 = .error .overflow)
    (fun h => atom_encode_ne_nil h.1)
    (fun off hoff s => walkAtoms_overflow_step file.length_lt hoff s) 0 (Nat.zero_le _)
    (maxAtoms, false)
  exact hiff

/-- What the two walkers promise of a file: no sum of an offset and a size overflows, and where both
accept, the boxes that they visited are the same, tile the file and have their `moov` first. -/
def VideoSound (file : VideoFile) : Prop :=
  (checkMoovBeforeMdat file).2 ≠ .error .overflow ∧
    ((checkMoovBeforeMdat file).2 = .ok () → (∃ count,
      (validateMp4MetadataFree file).2 = .ok count) →
      ∃ boxes, BoxesTile file.bytes 0 file.bytes.length boxes ∧ MoovFirst boxes ∧
        (checkMoovBeforeMdat file).1 = boxes ∧ (validateMp4MetadataFree file).1 = boxes)

/-- The walkers keep what they promise unless a header declares a size that the word behind its
offset cannot hold. -/
theorem videoSound_iff (file : VideoFile) : VideoSound file ↔ ¬DeclaresHuge file := by
  have htile : (checkMoovBeforeMdat file).2 = .ok () →
      (∃ count, (validateMp4MetadataFree file).2 = .ok count) →
      ∃ boxes, BoxesTile file.bytes 0 file.bytes.length boxes ∧ MoovFirst boxes ∧
        (checkMoovBeforeMdat file).1 = boxes ∧ (validateMp4MetadataFree file).1 = boxes := by
    rintro hmoov ⟨count, hcount⟩
    have hlength := file.length_lt
    have hboxes := walkBoxes_tile hcount (Nat.zero_le _)
    obtain ⟨hsame, hfirst⟩ := walkAtoms_tile hboxes rfl (by omega) hmoov
    exact ⟨_, hboxes, hfirst.resolve_left Bool.false_ne_true, hsame, rfl⟩
  rw [VideoSound, and_iff_left htile, ne_eq, overflow_iff]

/-- One header: an atom `free` of 2 ^ 64 - 1 bytes behind eight bytes of `free`. -/
def hugeAtom : VideoFile where
  bytes := [0, 0, 0, 8] ++ ascii "free" ++ [0, 0, 0, 1] ++ ascii "free" ++ List.replicate 8 0xff
  length_lt := by decide

theorem huge_atom_overflows : ¬∀ file, VideoSound file := by
  intro h
  exact (h hugeAtom).1 (by decide)

end Overflow

end Buzz.Media
