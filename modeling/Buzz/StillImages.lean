import Buzz.MediaCheck

/-!
# Metadata in JPEG and PNG files

The walkers that let through only what a picture needs. Both cut a file into its segments or
chunks. The JPEG walker names the markers it refuses, so a marker that is reserved carries its
payload through; the PNG walker asks ancillary chunks for a known name, but not critical ones.
-/

namespace Buzz.Media

open ByteTiling (beNat Tiled)

section JpegCode

/-- Past the run of `0xff`. -/
def skipFill (bytes : List UInt8) (i : ℕ) : ℕ :=
  if h : i < bytes.length then
    if bytes[i] = 0xff then skipFill bytes (i + 1) else i
  else i
termination_by bytes.length - i

theorem le_skipFill (bytes : List UInt8) (i : ℕ) : i ≤ skipFill bytes i := by
  fun_induction skipFill bytes i with
  | case1 i h hfill ih => exact Nat.le_of_succ_le ih
  | case2 i h hfill | case3 i h => exact Nat.le_refl i

/-- `RSTn` and `TEM`. -/
def isStandalone (marker : UInt8) : Bool :=
  (0xd0 ≤ marker && marker ≤ 0xd7) || marker == 0x01

def canonicalJfif (payload : List UInt8) : Bool :=
  14 ≤ payload.length && payload.take 5 == ascii "JFIF" ++ [0] &&
    payload.length == 14 + 3 * (payload.getD 12 0).toNat * (payload.getD 13 0).toNat

def isAdobe (payload : List UInt8) : Bool :=
  payload.length == 12 && payload.take 5 == ascii "Adobe"

def checkSegment (marker : UInt8) (payload : List UInt8) : Check Unit :=
  if marker = 0xe0 then
    if canonicalJfif payload then .ok () else refuse .metadataForbidden
  else if marker = 0xee then
    if isAdobe payload then .ok () else refuse .metadataForbidden
  else if (0xe1 ≤ marker ∧ marker ≤ 0xed) ∨ marker = 0xef ∨ marker = 0xfe then
    refuse .metadataForbidden
  else .ok ()

def walkJpeg (bytes : List UInt8) (i : ℕ) (inScan : Bool) : Check Unit :=
  if h : i < bytes.length then
    if bytes[i] ≠ 0xff then
      if inScan then walkJpeg bytes (i + 1) inScan else refuse .invalidImage
    else if hmarker : skipFill bytes i < bytes.length then
      let marker := bytes[skipFill bytes i]
      let start := skipFill bytes i + 1
      if inScan ∧ marker = 0x00 then walkJpeg bytes start inScan
      else if isStandalone marker then walkJpeg bytes start inScan
      else if marker = 0xd9 then
        if start = bytes.length then .ok () else refuse .metadataForbidden
      else if marker = 0xd8 then refuse .invalidImage
      else if bytes.length < start + 2 then refuse .invalidImage
      else
        match slice bytes start (start + 2) with
        | .error e => .error e
        | .ok size =>
            let stop := start + beNat size
            if beNat size < 2 then refuse .invalidImage
            else if bytes.length < stop then refuse .invalidImage
            else
              match slice bytes (start + 2) stop with
              | .error e => .error e
              | .ok payload =>
                  match checkSegment marker payload with
                  | .error e => .error e
                  | .ok () => walkJpeg bytes stop (marker == 0xda)
    else refuse .invalidImage
  else refuse .invalidImage
termination_by bytes.length - i
decreasing_by
  · omega
  · have := le_skipFill bytes i
    omega
  · have := le_skipFill bytes i
    omega
  · have := le_skipFill bytes i
    omega

def validateJpegMetadataFree (bytes : List UInt8) : Check Unit :=
  if [0xff, 0xd8].isPrefixOf bytes = false then refuse .invalidImage else walkJpeg bytes 2 false

end JpegCode

section JpegGrammar

/-- What a JPEG file is made of between its first marker and its last; a marker may stand behind
more than one `0xff`. -/
inductive JpegUnit where
  | data (byte : UInt8)
  | stuffed (fill : ℕ)
  | standalone (fill : ℕ) (marker : UInt8)
  | segment (fill : ℕ) (marker : UInt8) (size payload : List UInt8)
  deriving DecidableEq, Repr

namespace JpegUnit

def fillBytes (fill : ℕ) : List UInt8 := List.replicate (fill + 1) 0xff

def encode : JpegUnit → List UInt8
  | data byte => [byte]
  | stuffed fill => fillBytes fill ++ [0x00]
  | standalone fill marker => fillBytes fill ++ [marker]
  | segment fill marker size payload => fillBytes fill ++ marker :: (size ++ payload)

/-- Entropy-coded data follows a start of scan, up to the next segment. -/
def next (inScan : Bool) : JpegUnit → Bool
  | segment _ marker _ _ => marker == 0xda
  | _ => inScan

structure IsSegment (inScan : Bool) (marker : UInt8) (size payload : List UInt8) : Prop where
  notFill : marker ≠ 0xff
  notEnd : marker ≠ 0xd9
  notStart : marker ≠ 0xd8
  notStandalone : isStandalone marker = false
  notStuffed : ¬(inScan = true ∧ marker = 0x00)
  width : size.length = 2
  size : beNat size = payload.length + 2

def Fits (inScan : Bool) : JpegUnit → Prop
  | data byte => inScan = true ∧ byte ≠ 0xff
  | stuffed _ => inScan = true
  | standalone _ marker => isStandalone marker = true
  | segment _ marker size payload => IsSegment inScan marker size payload

/-- What the walker says of a segment. -/
def Passes : JpegUnit → Prop
  | segment _ marker _ payload => checkSegment marker payload = .ok ()
  | _ => True

end JpegUnit

/-- `EOI`, and nothing behind it. -/
def JpegEnd (rest : List UInt8) : Prop :=
  ∃ fill, rest = JpegUnit.fillBytes fill ++ [0xd9]

def JpegTiled (P : JpegUnit → Prop) (bytes : List UInt8) (units : List JpegUnit) : Prop :=
  ∃ tail, bytes = 0xff :: 0xd8 :: tail ∧
    Tiled JpegUnit.encode JpegUnit.next (fun inScan unit _ => unit.Fits inScan ∧ P unit)
      (fun _ => JpegEnd) false units tail

/-- The markers of the segments that a decoder needs: `SOFn`, `DHT`, `DAC`, `DQT`, `DRI`, `DNL`,
`DHP`, `EXP` and `SOS`. -/
def isRendering (marker : UInt8) : Bool :=
  (0xc0 ≤ marker && marker ≤ 0xcf && marker != 0xc8) || (0xda ≤ marker && marker ≤ 0xdf)

def JpegUnit.Rendering : JpegUnit → Prop
  | segment _ marker _ payload =>
      isRendering marker = true ∨ marker = 0xe0 ∧ canonicalJfif payload = true ∨
        marker = 0xee ∧ isAdobe payload = true
  | _ => True

/-- The markers that no part of the format uses: `0x00` outside a scan, `0x02` to `0xbf`, `JPG` and
`JPGn`. -/
def isReserved (marker : UInt8) : Bool :=
  marker == 0x00 || (0x02 ≤ marker && marker ≤ 0xbf) || marker == 0xc8 ||
    (0xf0 ≤ marker && marker ≤ 0xfd)

def JpegUnit.Reserved : JpegUnit → Prop
  | segment _ marker _ _ => isReserved marker = true
  | _ => False

end JpegGrammar

section JpegWalk

open JpegUnit (fillBytes)

variable {bytes tail : List UInt8} {i fill : ℕ} {marker : UInt8} {inScan : Bool}

/-- A run of `0xff` with another byte behind it, or with none. -/
theorem skipFill_eq {k : ℕ} (h : bytes.drop i = List.replicate k 0xff ++ tail)
    (htail : ∀ byte rest, tail = byte :: rest → byte ≠ 0xff) (hi : i ≤ bytes.length) :
    skipFill bytes i = i + k := by
  induction k generalizing i with
  | zero =>
      rw [List.replicate_zero, List.nil_append] at h
      rw [skipFill]
      split_ifs with hlt hfill
      · rw [List.drop_eq_getElem_cons hlt] at h
        exact absurd hfill (htail _ _ h.symm)
      · rfl
      · rfl
  | succ k ih =>
      rw [List.replicate_succ, List.cons_append] at h
      obtain ⟨hlt, hbyte, hrest⟩ := drop_cons h
      rw [skipFill, dif_pos hlt, if_pos hbyte, ih hrest hlt]
      omega

theorem fillBytes_inj {k : ℕ} {other : UInt8} {rest : List UInt8} (hmarker : marker ≠ 0xff)
    (hother : other ≠ 0xff)
    (h : fillBytes fill ++ marker :: tail = fillBytes k ++ other :: rest) :
    fill = k ∧ marker = other ∧ tail = rest := by
  unfold fillBytes at h
  induction fill generalizing k with
  | zero =>
      cases k with
      | zero =>
          obtain ⟨hsame, hrest⟩ := List.cons.inj (List.cons.inj h).2
          exact ⟨rfl, hsame, hrest⟩
      | succ k => exact absurd (List.cons.inj (List.cons.inj h).2).1 hmarker
  | succ fill ih =>
      cases k with
      | zero => exact absurd (List.cons.inj (List.cons.inj h).2).1.symm hother
      | succ k =>
          obtain ⟨hfill, hsame, hrest⟩ := ih (List.cons.inj h).2
          exact ⟨congrArg (· + 1) hfill, hsame, hrest⟩

/-- What a text can begin with. -/
theorem fill_cases (text : List UInt8) :
    text = [] ∨ (∃ byte rest, text = byte :: rest ∧ byte ≠ 0xff) ∨
      (∃ fill, text = fillBytes fill) ∨
      ∃ fill marker rest, text = fillBytes fill ++ marker :: rest ∧ marker ≠ 0xff := by
  induction text with
  | nil => exact .inl rfl
  | cons byte text ih =>
      by_cases hbyte : byte = 0xff
      · subst hbyte
        rcases ih with rfl | ⟨next, rest, rfl, hnext⟩ | ⟨fill, rfl⟩ | ⟨fill, next, rest, rfl, hnext⟩
        · exact .inr (.inr (.inl ⟨0, rfl⟩))
        · exact .inr (.inr (.inr ⟨0, next, rest, rfl, hnext⟩))
        · exact .inr (.inr (.inl ⟨fill + 1, rfl⟩))
        · exact .inr (.inr (.inr ⟨fill + 1, next, rest, rfl, hnext⟩))
      · exact .inr (.inl ⟨byte, text, rfl, hbyte⟩)

/-- A segment behind its marker. -/
theorem walkSegment_iff {j : ℕ} (htail : bytes.drop j = tail) (hj : j ≤ bytes.length)
    (htext : bytes.length = j + tail.length) :
    (if bytes.length < j + 2 then refuse .invalidImage
      else
        match slice bytes j (j + 2) with
        | .error e => .error e
        | .ok size =>
            let stop := j + beNat size
            if beNat size < 2 then refuse .invalidImage
            else if bytes.length < stop then refuse .invalidImage
            else
              match slice bytes (j + 2) stop with
              | .error e => .error e
              | .ok payload =>
                  match checkSegment marker payload with
                  | .error e => .error e
                  | .ok () => walkJpeg bytes stop (marker == 0xda)) = .ok () ↔
      ∃ size payload rest, tail = size ++ payload ++ rest ∧ size.length = 2 ∧
        beNat size = payload.length + 2 ∧ checkSegment marker payload = .ok () ∧
        walkJpeg bytes (j + beNat size) (marker == 0xda) = .ok () := by
  constructor
  · intro h
    split_ifs at h with hroom
    · cases h
    · have hsplit : tail = tail.take 2 ++ tail.drop 2 := (List.take_append_drop 2 tail).symm
      have hwidth : (tail.take 2).length = 2 := by
        rw [List.length_take]
        omega
      rw [slice_of_drop (htail.trans hsplit) hj (by omega)] at h
      simp only at h
      generalize hsize : tail.take 2 = size at *
      split_ifs at h with hsmall hlong
      · cases h
      · cases h
      · have hbody : bytes.drop (j + 2) = (tail.drop 2).take (beNat size - 2) ++
            (tail.drop 2).drop (beNat size - 2) := by
          rw [List.take_append_drop, ← List.drop_drop, htail]
        have hlength : ((tail.drop 2).take (beNat size - 2)).length = beNat size - 2 := by
          rw [List.length_take, List.length_drop]
          omega
        rw [slice_of_drop hbody (by omega) (by omega)] at h
        cases hcheck : checkSegment marker ((tail.drop 2).take (beNat size - 2)) with
        | error e =>
            simp only [hcheck] at h
            cases h
        | ok u =>
            simp only [hcheck] at h
            refine ⟨size, _, (tail.drop 2).drop (beNat size - 2), ?_, hwidth, ?_, hcheck, h⟩
            · rw [List.append_assoc, List.take_append_drop]
              exact hsplit
            · omega
  · rintro ⟨size, payload, rest, rfl, hwidth, hsize, hcheck, hrest⟩
    rw [List.append_assoc] at htail
    rw [List.length_append, List.length_append] at htext
    have hbody : bytes.drop (j + 2) = payload ++ rest := by
      rw [← hwidth]
      exact drop_add_length htail
    rw [if_neg (by omega), slice_of_drop htail hj (by omega)]
    simp only
    rw [if_neg (by omega), if_neg (by omega), slice_of_drop hbody (by omega) (by omega)]
    simp only [hcheck]
    exact hrest

/-- What the walker does at a marker, `j` being the place behind it. -/
theorem walkJpeg_marker_iff {j : ℕ} (h : bytes.drop i = fillBytes fill ++ marker :: tail)
    (hmarker : marker ≠ 0xff) (hj : j = i + fill + 2) :
    walkJpeg bytes i inScan = .ok () ↔
      ((inScan = true ∧ marker = 0x00 ∨ isStandalone marker = true) ∧
          walkJpeg bytes j inScan = .ok ()) ∨
        (marker = 0xd9 ∧ tail = []) ∨
        (marker ≠ 0xd9 ∧ marker ≠ 0xd8 ∧ isStandalone marker = false ∧
          ¬(inScan = true ∧ marker = 0x00)) ∧
          ∃ size payload rest, tail = size ++ payload ++ rest ∧ size.length = 2 ∧
            beNat size = payload.length + 2 ∧ checkSegment marker payload = .ok () ∧
            walkJpeg bytes (j + beNat size) (marker == 0xda) = .ok () := by
  have hne : ∀ byte rest, marker :: tail = byte :: rest → byte ≠ 0xff := fun byte rest heq =>
    (List.cons.inj heq).1 ▸ hmarker
  have hfirst : bytes.drop i = 0xff :: (List.replicate fill 0xff ++ marker :: tail) := h
  obtain ⟨hlt, hbyte, -⟩ := drop_cons hfirst
  have hskip : skipFill bytes i = i + (fill + 1) := skipFill_eq h hne hlt.le
  have hdrop : bytes.drop (skipFill bytes i) = marker :: tail := by
    have hlength : (fillBytes fill).length = fill + 1 := List.length_replicate
    rw [hskip, ← hlength, drop_add_length h]
  obtain ⟨hmarkerLt, hvalue, htail⟩ := drop_cons hdrop
  have hstart : skipFill bytes i + 1 = j := by omega
  rw [hstart] at htail
  have hj : j ≤ bytes.length := by omega
  have htext : bytes.length = j + tail.length := by
    rw [← htail, List.length_drop]
    omega
  rw [walkJpeg, dif_pos hlt, if_neg (not_not.mpr hbyte), dif_pos hmarkerLt]
  simp only [hvalue, hstart]
  by_cases hstuffed : inScan = true ∧ marker = 0x00
  · have hnotEnd : marker ≠ 0xd9 := by
      rw [hstuffed.2]
      decide
    simp [hstuffed.1, hstuffed.2]
  · rw [if_neg hstuffed]
    by_cases hstandalone : isStandalone marker = true
    · have hnotEnd : marker ≠ 0xd9 := by
        rintro rfl
        revert hstandalone
        decide
      simp [hstandalone, hnotEnd]
    · rw [if_neg hstandalone]
      by_cases hend : marker = 0xd9
      · have hnil : j = bytes.length ↔ tail = [] := by
          rw [htext, ← List.length_eq_zero_iff]
          omega
        rw [if_pos hend]
        simp only [hnil]
        subst hend
        have hnot : ¬(inScan = true ∧ (0xd9 : UInt8) = 0x00 ∨ isStandalone 0xd9 = true) := by
          rintro (⟨-, h⟩ | h)
          · exact absurd h (by decide)
          · exact absurd h (by decide)
        by_cases htailNil : tail = []
        · simp only [htailNil, if_true, hnot, false_and, true_or, or_true, and_self]
        · simp only [htailNil, if_false, hnot, false_and, and_false, false_or, ne_eq, not_true,
            iff_false]
          exact fun h => by cases h
      · rw [if_neg hend]
        simp only [hend, false_and, false_or, ne_eq, not_false_eq_true, true_and,
          Bool.not_eq_true _ |>.mp hstandalone, hstuffed, and_true, Bool.false_eq_true, or_self]
        by_cases hstartMarker : marker = 0xd8
        · simp only [hstartMarker, if_true, not_true, false_and, iff_false]
          exact fun h => by cases h
        · simp only [hstartMarker, if_false, not_false_eq_true, true_and]
          exact walkSegment_iff htail hj htext

theorem length_fillBytes (fill : ℕ) : (fillBytes fill).length = fill + 1 :=
  List.length_replicate

theorem isStandalone_ne (h : isStandalone marker = true) : marker ≠ 0xff := by
  rintro rfl
  revert h
  decide

/-- A unit is a byte of data, or it has a marker behind its fill bytes. -/
theorem encode_cases {unit : JpegUnit} (h : unit.Fits inScan) :
    (∃ byte, unit = .data byte ∧ byte ≠ 0xff) ∨
      ∃ fill marker body, unit.encode = fillBytes fill ++ marker :: body ∧ marker ≠ 0xff := by
  cases unit with
  | data byte => exact .inl ⟨byte, rfl, h.2⟩
  | stuffed fill => exact .inr ⟨fill, 0x00, [], rfl, by decide⟩
  | standalone fill marker => exact .inr ⟨fill, marker, [], rfl, isStandalone_ne h⟩
  | segment fill marker size payload => exact .inr ⟨fill, marker, _, rfl, h.notFill⟩

theorem encode_ne_nil {unit : JpegUnit} (h : unit.Fits inScan) : unit.encode ≠ [] := by
  rcases encode_cases h with ⟨byte, rfl, -⟩ | ⟨fill, marker, body, heq, -⟩
  · exact List.cons_ne_nil _ _
  · rw [heq]
    exact List.append_ne_nil_of_right_ne_nil _ (List.cons_ne_nil _ _)

theorem fillBytes_append_ne {rest : List UInt8} (hmarker : marker ≠ 0xff) :
    fillBytes fill ++ tail ≠ marker :: rest := fun h =>
  hmarker (List.cons.inj h).1.symm

/-- A run of `0xff` has no marker in it. -/
theorem fillBytes_ne {k : ℕ} (hmarker : marker ≠ 0xff) :
    fillBytes fill ≠ fillBytes k ++ marker :: tail := by
  intro h
  have hmem : marker ∈ fillBytes fill := by
    rw [h]
    exact List.mem_append_right _ (List.mem_cons_self ..)
  exact hmarker (List.eq_of_mem_replicate hmem)

/-- Data does not begin with a fill byte, a unit with a marker does. -/
theorem walkJpeg_step_data {byte : UInt8} (hdrop : bytes.drop i = byte :: tail)
    (hbyte : byte ≠ 0xff) :
    walkJpeg bytes i inScan = .ok () ↔ JpegEnd (byte :: tail) ∨
      ∃ unit rest, byte :: tail = JpegUnit.encode unit ++ rest ∧
        (unit.Fits inScan ∧ unit.Passes) ∧
        walkJpeg bytes (i + unit.encode.length) (unit.next inScan) = .ok () := by
  obtain ⟨hlt, hvalue, -⟩ := drop_cons hdrop
  rw [walkJpeg, dif_pos hlt, if_pos (hvalue ▸ hbyte)]
  constructor
  · intro h
    cases inScan with
    | false => cases h
    | true => exact .inr ⟨.data byte, tail, rfl, ⟨⟨rfl, hbyte⟩, trivial⟩, h⟩
  · rintro (⟨fill, heq⟩ | ⟨unit, rest, heq, ⟨hfits, -⟩, hrest⟩)
    · exact absurd heq.symm (fillBytes_append_ne hbyte)
    · rcases encode_cases hfits with ⟨byte, rfl, -⟩ | ⟨fill, marker, body, hencode, -⟩
      · rw [if_pos hfits.1]
        exact hrest
      · rw [hencode, List.append_assoc] at heq
        exact absurd heq.symm (fillBytes_append_ne hbyte)

theorem walkJpeg_step_fill (hdrop : bytes.drop i = fillBytes fill) (hi : i ≤ bytes.length) :
    walkJpeg bytes i inScan = .ok () ↔ JpegEnd (fillBytes fill) ∨
      ∃ unit rest, fillBytes fill = JpegUnit.encode unit ++ rest ∧
        (unit.Fits inScan ∧ unit.Passes) ∧
        walkJpeg bytes (i + unit.encode.length) (unit.next inScan) = .ok () := by
  obtain ⟨hlt, hvalue, -⟩ := drop_cons (show bytes.drop i =
    0xff :: List.replicate fill 0xff from hdrop)
  have hskip : skipFill bytes i = i + (fill + 1) :=
    @skipFill_eq bytes [] i _ (by rw [hdrop, List.append_nil]; rfl) (by simp) hi
  have hlength := congrArg List.length hdrop
  rw [List.length_drop, length_fillBytes] at hlength
  rw [walkJpeg, dif_pos hlt, if_neg (not_not.mpr hvalue), dif_neg (by omega)]
  refine iff_of_false (fun h => by cases h) ?_
  rintro (⟨k, heq⟩ | ⟨unit, rest, heq, ⟨hfits, -⟩, -⟩)
  · exact fillBytes_ne (by decide) heq
  · rcases encode_cases hfits with ⟨byte, rfl, hbyte⟩ | ⟨k, marker, body, hencode, hmarker⟩
    · exact hbyte (List.cons.inj heq).1.symm
    · rw [hencode, List.append_assoc, List.cons_append] at heq
      exact fillBytes_ne hmarker heq

theorem stuffed_append (fill : ℕ) (rest : List UInt8) :
    (JpegUnit.stuffed fill).encode ++ rest = fillBytes fill ++ 0x00 :: rest := by
  rw [JpegUnit.encode, List.append_assoc, List.singleton_append]

theorem standalone_append (fill : ℕ) (marker : UInt8) (rest : List UInt8) :
    (JpegUnit.standalone fill marker).encode ++ rest = fillBytes fill ++ marker :: rest := by
  rw [JpegUnit.encode, List.append_assoc, List.singleton_append]

theorem segment_append (fill : ℕ) (marker : UInt8) (size payload rest : List UInt8) :
    (JpegUnit.segment fill marker size payload).encode ++ rest =
      fillBytes fill ++ marker :: (size ++ (payload ++ rest)) := by
  rw [JpegUnit.encode, List.append_assoc, List.cons_append, List.append_assoc]

theorem walkJpeg_step_marker (hdrop : bytes.drop i = fillBytes fill ++ marker :: tail)
    (hmarker : marker ≠ 0xff) :
    walkJpeg bytes i inScan = .ok () ↔ JpegEnd (fillBytes fill ++ marker :: tail) ∨
      ∃ unit rest, fillBytes fill ++ marker :: tail = JpegUnit.encode unit ++ rest ∧
        (unit.Fits inScan ∧ unit.Passes) ∧
        walkJpeg bytes (i + unit.encode.length) (unit.next inScan) = .ok () := by
  have hplace : i + (fillBytes fill ++ [marker]).length = i + fill + 2 := by
    rw [List.length_append, length_fillBytes, List.length_singleton]
    omega
  rw [walkJpeg_marker_iff hdrop hmarker rfl]
  constructor
  · rintro (⟨hkind | hkind, hrest⟩ | ⟨rfl, rfl⟩ |
      ⟨⟨hend, hstart, hstandalone, hstuffed⟩, size, payload, rest, rfl, hwidth, hsize, hcheck,
        hrest⟩)
    · refine .inr ⟨.stuffed fill, tail, ?_, ⟨hkind.1, trivial⟩, ?_⟩
      · rw [stuffed_append, hkind.2]
      · rw [JpegUnit.encode, ← hkind.2, hplace]
        exact hrest
    · refine .inr ⟨.standalone fill marker, tail, ?_, ⟨hkind, trivial⟩, ?_⟩
      · rw [standalone_append]
      · rw [JpegUnit.encode, hplace]
        exact hrest
    · exact .inl ⟨fill, rfl⟩
    · refine .inr ⟨.segment fill marker size payload, rest, ?_,
        ⟨⟨hmarker, hend, hstart, hstandalone, hstuffed, hwidth, hsize⟩, hcheck⟩, ?_⟩
      · rw [segment_append, List.append_assoc]
      · rw [show i + (JpegUnit.segment fill marker size payload).encode.length =
            i + fill + 2 + beNat size by
          simp only [JpegUnit.encode, List.length_append, List.length_cons, length_fillBytes]
          omega]
        exact hrest
  · rintro (⟨k, heq⟩ | ⟨unit, rest, heq, ⟨hfits, hpasses⟩, hrest⟩)
    · obtain ⟨-, rfl, rfl⟩ := fillBytes_inj hmarker (by decide) heq
      exact .inr (.inl ⟨rfl, rfl⟩)
    · cases unit with
      | data byte => exact absurd (List.cons.inj heq).1.symm hfits.2
      | stuffed k =>
          rw [stuffed_append] at heq
          obtain ⟨rfl, rfl, rfl⟩ := fillBytes_inj hmarker (by decide) heq
          rw [JpegUnit.encode, hplace] at hrest
          exact .inl ⟨.inl ⟨hfits, rfl⟩, hrest⟩
      | standalone k other =>
          rw [standalone_append] at heq
          obtain ⟨rfl, rfl, rfl⟩ := fillBytes_inj hmarker (isStandalone_ne hfits) heq
          rw [JpegUnit.encode, hplace] at hrest
          exact .inl ⟨.inr hfits, hrest⟩
      | segment k other size payload =>
          rw [segment_append] at heq
          obtain ⟨rfl, rfl, rfl⟩ := fillBytes_inj hmarker hfits.notFill heq
          rw [show i + (JpegUnit.segment fill marker size payload).encode.length =
              i + fill + 2 + beNat size by
            have := hfits.width
            have := hfits.size
            simp only [JpegUnit.encode, List.length_append, List.length_cons, length_fillBytes]
            omega] at hrest
          exact .inr (.inr ⟨⟨hfits.notEnd, hfits.notStart, hfits.notStandalone, hfits.notStuffed⟩,
            size, payload, rest, (List.append_assoc ..).symm, hfits.width, hfits.size, hpasses,
            hrest⟩)

/-- The walker stops at an end, or takes one unit and goes on behind it. -/
theorem walkJpeg_step (bytes : List UInt8) (hi : i ≤ bytes.length) (inScan : Bool) :
    walkJpeg bytes i inScan = .ok () ↔ JpegEnd (bytes.drop i) ∨
      ∃ unit rest, bytes.drop i = JpegUnit.encode unit ++ rest ∧
        (unit.Fits inScan ∧ unit.Passes) ∧
        walkJpeg bytes (i + unit.encode.length) (unit.next inScan) = .ok () := by
  rcases fill_cases (bytes.drop i) with hdrop | ⟨byte, rest, hdrop, hbyte⟩ | ⟨fill, hdrop⟩ |
    ⟨fill, marker, rest, hdrop, hmarker⟩
  · have hlast : bytes.length ≤ i := List.drop_eq_nil_iff.mp hdrop
    rw [walkJpeg, dif_neg (by omega), hdrop]
    refine iff_of_false (fun h => by cases h) ?_
    rintro (⟨k, heq⟩ | ⟨unit, rest, heq, ⟨hfits, -⟩, -⟩)
    · cases heq
    · exact encode_ne_nil hfits (List.append_eq_nil_iff.mp heq.symm).1
  · rw [hdrop]
    exact walkJpeg_step_data hdrop hbyte
  · rw [hdrop]
    exact walkJpeg_step_fill hdrop hi
  · rw [hdrop]
    exact walkJpeg_step_marker hdrop hmarker

/-- An accepted file is a row of units that all pass, between its two markers. -/
theorem validateJpeg_iff_tiled (bytes : List UInt8) :
    validateJpegMetadataFree bytes = .ok () ↔ ∃ units, JpegTiled JpegUnit.Passes bytes units := by
  have hwalk : ∀ tail, walkJpeg (0xff :: 0xd8 :: tail) 2 false = .ok () ↔
      ∃ units, Tiled JpegUnit.encode JpegUnit.next
        (fun inScan unit _ => unit.Fits inScan ∧ unit.Passes) (fun _ => JpegEnd) false units tail :=
    fun tail => @ByteTiling.accepts_iff_tiled _ _ _ _ _ _ _ (0xff :: 0xd8 :: tail)
      (fun i inScan => walkJpeg (0xff :: 0xd8 :: tail) i inScan = .ok ())
      (fun h => encode_ne_nil h.1) (fun i hi inScan => walkJpeg_step _ hi inScan) 2 (by simp) false
  unfold validateJpegMetadataFree JpegTiled
  split_ifs with hprefix
  · refine iff_of_false (fun h => by cases h) ?_
    rintro ⟨units, tail, rfl, -⟩
    cases hprefix
  · rw [Bool.not_eq_false, List.isPrefixOf_iff_prefix] at hprefix
    obtain ⟨tail, rfl⟩ := hprefix
    rw [List.cons_append, List.singleton_append, hwalk tail]
    constructor
    · rintro ⟨units, h⟩
      exact ⟨units, tail, rfl, h⟩
    · rintro ⟨units, _, heq, h⟩
      cases heq
      exact ⟨units, h⟩

/-- Two units that begin one text are the same. -/
theorem encode_inj {unit other : JpegUnit} {rest rest' : List UInt8} (hunit : unit.Fits inScan)
    (hother : other.Fits inScan) (heq : unit.encode ++ rest = other.encode ++ rest') :
    unit = other := by
  have hzero : (0x00 : UInt8) ≠ 0xff := by decide
  have hnotStandalone : isStandalone 0x00 ≠ true := by decide
  cases unit with
  | data byte =>
      rcases encode_cases hother with ⟨other, rfl, -⟩ | ⟨fill, marker, body, hencode, -⟩
      · rw [(List.cons.inj heq).1]
      · rw [hencode, List.append_assoc] at heq
        exact absurd heq.symm (fillBytes_append_ne hunit.2)
  | stuffed fill =>
      rw [stuffed_append] at heq
      cases other with
      | data other => exact absurd heq (fillBytes_append_ne hother.2)
      | stuffed k =>
          rw [stuffed_append] at heq
          rw [(fillBytes_inj hzero hzero heq).1]
      | standalone k other =>
          rw [standalone_append] at heq
          obtain ⟨-, rfl, -⟩ := fillBytes_inj hzero (isStandalone_ne hother) heq
          exact absurd hother hnotStandalone
      | segment k other size payload =>
          rw [segment_append] at heq
          obtain ⟨-, rfl, -⟩ := fillBytes_inj hzero hother.notFill heq
          exact absurd ⟨hunit, rfl⟩ hother.notStuffed
  | standalone fill marker =>
      rw [standalone_append] at heq
      cases other with
      | data other => exact absurd heq (fillBytes_append_ne hother.2)
      | stuffed k =>
          rw [stuffed_append] at heq
          obtain ⟨-, rfl, -⟩ := fillBytes_inj (isStandalone_ne hunit) hzero heq
          exact absurd hunit hnotStandalone
      | standalone k other =>
          rw [standalone_append] at heq
          obtain ⟨rfl, rfl, -⟩ := fillBytes_inj (isStandalone_ne hunit) (isStandalone_ne hother) heq
          rfl
      | segment k other size payload =>
          rw [segment_append] at heq
          obtain ⟨-, rfl, -⟩ := fillBytes_inj (isStandalone_ne hunit) hother.notFill heq
          exact absurd hunit (Bool.not_eq_true _ |>.mpr hother.notStandalone)
  | segment fill marker size payload =>
      rw [segment_append] at heq
      cases other with
      | data other => exact absurd heq (fillBytes_append_ne hother.2)
      | stuffed k =>
          rw [stuffed_append] at heq
          obtain ⟨-, rfl, -⟩ := fillBytes_inj hunit.notFill hzero heq
          exact absurd ⟨hother, rfl⟩ hunit.notStuffed
      | standalone k other =>
          rw [standalone_append] at heq
          obtain ⟨-, rfl, -⟩ := fillBytes_inj hunit.notFill (isStandalone_ne hother) heq
          exact absurd hother (Bool.not_eq_true _ |>.mpr hunit.notStandalone)
      | segment k other size' payload' =>
          rw [segment_append] at heq
          obtain ⟨rfl, rfl, hbody⟩ := fillBytes_inj hunit.notFill hother.notFill heq
          obtain ⟨rfl, hpayload⟩ := List.append_inj hbody (by rw [hunit.width, hother.width])
          have hlength : payload.length = payload'.length := by
            have := hunit.size
            have := hother.size
            omega
          rw [(List.append_inj hpayload hlength).1]

theorem jpegUnits_unambiguous (P : JpegUnit → Prop) :
    ByteTiling.Unambiguous JpegUnit.encode (fun inScan unit _ => unit.Fits inScan ∧ P unit)
      (fun _ : Bool => JpegEnd) where
  record hunit hother heq := encode_inj hunit.1 hother.1 heq
  stop := by
    rintro inScan unit rest text ⟨hunit, -⟩ ⟨fill, rfl⟩ heq
    have hend : (0xd9 : UInt8) ≠ 0xff := by decide
    cases unit with
    | data byte => exact fillBytes_append_ne hunit.2 heq
    | stuffed k =>
        rw [stuffed_append] at heq
        exact absurd (fillBytes_inj hend (by decide) heq).2.1 (by decide)
    | standalone k marker =>
        rw [standalone_append] at heq
        obtain ⟨-, rfl, -⟩ := fillBytes_inj hend (isStandalone_ne hunit) heq
        exact absurd (show isStandalone 0xd9 = true from hunit) (by decide)
    | segment k marker size payload =>
        rw [segment_append] at heq
        exact hunit.notEnd (fillBytes_inj hend hunit.notFill heq).2.1.symm

/-- A marker that the walker goes on behind and does not name. -/
theorem isRendering_or_isReserved_iff (hnotFill : marker ≠ 0xff) (hend : marker ≠ 0xd9)
    (hstart : marker ≠ 0xd8) (hstandalone : isStandalone marker = false) :
    (isRendering marker = true ∨ isReserved marker = true) ↔
      ¬((0xe0 ≤ marker ∧ marker ≤ 0xef) ∨ marker = 0xfe) := by
  simp only [isStandalone, isRendering, isReserved, Bool.or_eq_true, Bool.and_eq_true,
    decide_eq_true_eq, bne_iff_ne, beq_iff_eq, Bool.or_eq_false_iff, Bool.and_eq_false_iff,
    decide_eq_false_iff_not, beq_eq_false_iff_ne, ne_eq, UInt8.le_iff_toNat_le, ← UInt8.toNat_inj,
    UInt8.reduceToNat] at *
  have hbyte : marker.toNat < 256 := marker.toNat_lt
  omega

/-- What the walker does not name is a marker that renders, or a reserved one. -/
theorem passes_iff {unit : JpegUnit} (h : unit.Fits inScan) :
    unit.Passes ↔ unit.Rendering ∨ unit.Reserved := by
  cases unit with
  | data byte | stuffed fill | standalone fill marker => exact iff_of_true trivial (.inl trivial)
  | segment fill marker size payload =>
      have hkind := isRendering_or_isReserved_iff h.notFill h.notEnd h.notStart h.notStandalone
      simp only [JpegUnit.Passes, JpegUnit.Rendering, JpegUnit.Reserved, checkSegment]
      by_cases hjfif : marker = 0xe0
      · subst hjfif
        have hrendering : isRendering 0xe0 = false := by decide
        have hreserved : isReserved 0xe0 = false := by decide
        by_cases hcanonical : canonicalJfif payload = true
        · simp [hcanonical]
        · simp [hcanonical, hrendering, hreserved, refuse]
      · by_cases hadobe : marker = 0xee
        · subst hadobe
          have hrendering : isRendering 0xee = false := by decide
          have hreserved : isReserved 0xee = false := by decide
          by_cases hpayload : isAdobe payload = true
          · simp [hpayload]
          · simp [hpayload, hrendering, hreserved, refuse]
        · have hnamed : ((0xe1 ≤ marker ∧ marker ≤ 0xed) ∨ marker = 0xef ∨ marker = 0xfe) ↔
              ((0xe0 ≤ marker ∧ marker ≤ 0xef) ∨ marker = 0xfe) := by
            simp only [UInt8.le_iff_toNat_le, ← UInt8.toNat_inj, UInt8.reduceToNat] at *
            omega
          simp only [hjfif, hadobe, if_false, false_and, or_false, hkind, ← hnamed]
          split_ifs with h
          · exact iff_of_false (fun h => by cases h) (not_not.mpr h)
          · exact iff_of_true rfl h

theorem not_reserved_of_rendering {unit : JpegUnit} (h : unit.Rendering) : ¬unit.Reserved := by
  cases unit with
  | data byte | stuffed fill | standalone fill marker => exact id
  | segment fill marker size payload =>
      rcases h with hmarker | ⟨rfl, -⟩ | ⟨rfl, -⟩
      · simp only [JpegUnit.Reserved, isRendering, isReserved, Bool.or_eq_true, Bool.and_eq_true,
          decide_eq_true_eq, bne_iff_ne, beq_iff_eq, ne_eq, UInt8.le_iff_toNat_le,
          ← UInt8.toNat_inj, UInt8.reduceToNat] at *
        omega
      · exact Bool.false_ne_true
      · exact Bool.false_ne_true

theorem jpegTiled_cons {P : JpegUnit → Prop} {units : List JpegUnit} :
    JpegTiled P (0xff :: 0xd8 :: tail) units ↔ Tiled JpegUnit.encode JpegUnit.next
      (fun inScan unit _ => unit.Fits inScan ∧ P unit) (fun _ => JpegEnd) false units tail := by
  constructor
  · rintro ⟨_, heq, h⟩
    cases heq
    exact h
  · exact fun h => ⟨tail, rfl, h⟩

/-- A file in which a reserved marker carries a payload. -/
def JpegCarriesReserved (bytes : List UInt8) : Prop :=
  ∃ units, JpegTiled (fun unit => unit.Rendering ∨ unit.Reserved) bytes units ∧
    ∃ unit ∈ units, JpegUnit.Reserved unit

theorem jpeg_rendering_iff (bytes : List UInt8) :
    (validateJpegMetadataFree bytes = .ok () → ∃ units, JpegTiled JpegUnit.Rendering bytes units) ↔
      ¬JpegCarriesReserved bytes := by
  by_cases hprefix : ∃ tail, bytes = 0xff :: 0xd8 :: tail
  · obtain ⟨tail, rfl⟩ := hprefix
    have hpasses : ∀ units, JpegTiled JpegUnit.Passes (0xff :: 0xd8 :: tail) units ↔
        JpegTiled (fun unit => unit.Rendering ∨ unit.Reserved) (0xff :: 0xd8 :: tail) units := by
      intro units
      rw [jpegTiled_cons, jpegTiled_cons]
      constructor
      · exact fun h => h.mono fun s a _ rest ⟨hfits, hpass⟩ => ⟨hfits, (passes_iff hfits).mp hpass⟩
      · exact fun h => h.mono fun s a _ rest ⟨hfits, hkind⟩ => ⟨hfits, (passes_iff hfits).mpr hkind⟩
    have honly := @Tiled.only_iff _ _ _ _ JpegUnit.next _ _ false tail
      (fun _ unit => unit.Rendering) JpegUnit.Reserved
      (jpegUnits_unambiguous fun unit => unit.Rendering ∨ unit.Reserved)
      (fun h => ⟨not_reserved_of_rendering, h.2.resolve_right⟩)
    have hrendering : ∀ units, JpegTiled JpegUnit.Rendering (0xff :: 0xd8 :: tail) units ↔
        Tiled JpegUnit.encode JpegUnit.next (fun inScan unit _ =>
          (unit.Fits inScan ∧ (unit.Rendering ∨ unit.Reserved)) ∧ unit.Rendering)
          (fun _ => JpegEnd) false units tail := by
      intro units
      rw [jpegTiled_cons]
      constructor
      · exact fun h => h.mono fun s a _ rest ⟨hfits, hunit⟩ => ⟨⟨hfits, .inl hunit⟩, hunit⟩
      · exact fun h => h.mono fun s a _ rest ⟨⟨hfits, _⟩, hunit⟩ => ⟨hfits, hunit⟩
    simp only [validateJpeg_iff_tiled, JpegCarriesReserved, hpasses, hrendering, jpegTiled_cons]
    exact honly
  · have hnone : ∀ P units, ¬JpegTiled P bytes units := fun P units ⟨tail, heq, _⟩ =>
      hprefix ⟨tail, heq⟩
    simp only [validateJpeg_iff_tiled, JpegCarriesReserved, hnone, exists_false, false_and,
      false_implies, not_false_eq_true]

end JpegWalk

section PngCode

/-- `PNG_SNAPSHOT_KEYWORDS`. -/
def pngSnapshotKeywords : List (List UInt8) :=
  [ascii "buzz_agent_snapshot", ascii "buzz_team_snapshot"]

def isSnapshotTextChunk (payload : List UInt8) : Bool :=
  pngSnapshotKeywords.any fun keyword =>
    keyword.length < payload.length && payload.take keyword.length == keyword &&
      payload.getD keyword.length 1 == 0

def pngSig : List UInt8 := [0x89, 0x50, 0x4e, 0x47, 0x0d, 0x0a, 0x1a, 0x0a]

def pngForbidden : List (List UInt8) :=
  [ascii "eXIf", ascii "zTXt", ascii "iTXt", ascii "iCCP"]

def pngKnownRendering : List (List UInt8) :=
  [ascii "cHRM", ascii "gAMA", ascii "sBIT", ascii "sRGB", ascii "bKGD", ascii "hIST",
    ascii "tRNS", ascii "sPLT", ascii "acTL", ascii "fcTL", ascii "fdAT"]

/-- `kind[0] & 0x20`. -/
def isAncillary (kind : List UInt8) : Bool := kind.headD 0 &&& 0x20 != 0

def walkPng (bytes : List UInt8) (i : ℕ) (sawSnapshotChunk : Bool) : Check Unit :=
  if i < bytes.length then
    if bytes.length < i + 12 then refuse .invalidImage
    else
      match read bytes i 4 with
      | .error e => .error e
      | .ok size =>
          match read bytes (i + 4) 4 with
          | .error e => .error e
          | .ok kind =>
              let stop := i + 12 + beNat size
              if bytes.length < stop then refuse .invalidImage
              else if kind = ascii "tEXt" then
                match slice bytes (i + 8) (stop - 4) with
                | .error e => .error e
                | .ok payload =>
                    if sawSnapshotChunk || !isSnapshotTextChunk payload then
                      refuse .metadataForbidden
                    else walkPng bytes stop true
              else if kind ∈ pngForbidden then refuse .metadataForbidden
              else if isAncillary kind && !decide (kind ∈ pngKnownRendering) then
                refuse .metadataForbidden
              else if kind = ascii "IEND" then
                if stop = bytes.length then .ok () else refuse .metadataForbidden
              else walkPng bytes stop sawSnapshotChunk
  else refuse .metadataForbidden
termination_by bytes.length - i

def validatePngMetadataFree (bytes : List UInt8) : Check Unit :=
  if pngSig.isPrefixOf bytes = false then refuse .invalidImage
  else walkPng bytes pngSig.length false

end PngCode

section PngGrammar

structure PngChunk where
  size : List UInt8
  kind : List UInt8
  payload : List UInt8
  crc : List UInt8
  deriving DecidableEq, Repr

namespace PngChunk

def encode (chunk : PngChunk) : List UInt8 := chunk.size ++ chunk.kind ++ chunk.payload ++ chunk.crc

structure Fits (chunk : PngChunk) : Prop where
  sizeWidth : chunk.size.length = 4
  kindWidth : chunk.kind.length = 4
  crcWidth : chunk.crc.length = 4
  size : beNat chunk.size = chunk.payload.length

/-- Whether a snapshot has been seen. -/
def next (saw : Bool) (chunk : PngChunk) : Bool := saw || chunk.kind == ascii "tEXt"

/-- What the walker says of a chunk. -/
def Passes (saw : Bool) (chunk : PngChunk) : Prop :=
  if chunk.kind = ascii "tEXt" then saw = false ∧ isSnapshotTextChunk chunk.payload = true
  else chunk.kind ∉ pngForbidden ∧ (isAncillary chunk.kind = true → chunk.kind ∈ pngKnownRendering)

/-- The chunks that may stand before the last. -/
def Listed (saw : Bool) (chunk : PngChunk) : Prop :=
  chunk.kind ∈ [ascii "IHDR", ascii "PLTE", ascii "IDAT"] ∨ chunk.kind ∈ pngKnownRendering ∨
    (chunk.kind = ascii "tEXt" ∧ saw = false ∧ isSnapshotTextChunk chunk.payload = true)

/-- A critical chunk that the format does not know. -/
def Unknown (chunk : PngChunk) : Prop :=
  isAncillary chunk.kind = false ∧
    chunk.kind ∉ [ascii "IHDR", ascii "PLTE", ascii "IDAT", ascii "IEND"]

end PngChunk

/-- `IEND`, and nothing behind it. -/
def PngEnd (rest : List UInt8) : Prop :=
  ∃ last : PngChunk, last.Fits ∧ last.kind = ascii "IEND" ∧ rest = last.encode

def PngTiled (P : Bool → PngChunk → Prop) (bytes : List UInt8) (chunks : List PngChunk) : Prop :=
  ∃ tail, bytes = pngSig ++ tail ∧
    Tiled PngChunk.encode PngChunk.next
      (fun saw chunk _ => (chunk.Fits ∧ chunk.kind ≠ ascii "IEND") ∧ P saw chunk)
      (fun _ => PngEnd) false chunks tail

/-- A file in which an unknown critical chunk carries a payload. -/
def PngCarriesUnknown (bytes : List UInt8) : Prop :=
  ∃ chunks, PngTiled (fun saw chunk => chunk.Listed saw ∨ chunk.Unknown) bytes chunks ∧
    ∃ chunk ∈ chunks, PngChunk.Unknown chunk

end PngGrammar

section PngWalk

variable {bytes text rest rest' : List UInt8} {i : ℕ} {saw : Bool} {chunk other : PngChunk}

theorem PngChunk.Fits.length (h : chunk.Fits) :
    chunk.encode.length = 12 + beNat chunk.size := by
  have := h.sizeWidth
  have := h.kindWidth
  have := h.crcWidth
  have := h.size
  simp only [PngChunk.encode, List.length_append]
  omega

theorem chunk_append (chunk : PngChunk) (rest : List UInt8) :
    chunk.encode ++ rest = chunk.size ++ (chunk.kind ++
      (chunk.payload ++ (chunk.crc ++ rest))) := by
  simp only [PngChunk.encode, List.append_assoc]

/-- The size says where a chunk ends. -/
theorem chunk_inj (hchunk : chunk.Fits) (hother : other.Fits)
    (heq : chunk.encode ++ rest = other.encode ++ rest') : chunk = other := by
  rw [chunk_append, chunk_append] at heq
  obtain ⟨hsize, heq⟩ := List.append_inj heq (by rw [hchunk.sizeWidth, hother.sizeWidth])
  obtain ⟨hkind, heq⟩ := List.append_inj heq (by rw [hchunk.kindWidth, hother.kindWidth])
  obtain ⟨hpayload, heq⟩ := List.append_inj heq (by rw [← hchunk.size, ← hother.size, hsize])
  obtain ⟨hcrc, -⟩ := List.append_inj heq (by rw [hchunk.crcWidth, hother.crcWidth])
  cases chunk
  cases other
  simp_all

theorem exists_chunk (hroom : 12 + beNat (text.take 4) ≤ text.length) :
    ∃ chunk : PngChunk, ∃ rest, chunk.Fits ∧ text = chunk.encode ++ rest := by
  generalize hn : beNat (text.take 4) = n at hroom
  have hparts : text = text.take 4 ++ ((text.drop 4).take 4 ++ ((text.drop 8).take n ++
      ((text.drop (8 + n)).take 4 ++ text.drop (8 + n + 4)))) := by
    rw [← drop_split text (8 + n) 4, ← drop_split text 8 n, ← drop_split text 4 4,
      List.take_append_drop]
  refine ⟨⟨text.take 4, (text.drop 4).take 4, (text.drop 8).take n, (text.drop (8 + n)).take 4⟩,
    text.drop (8 + n + 4), ⟨?_, ?_, ?_, ?_⟩, ?_⟩
  · rw [List.length_take]
    omega
  · rw [List.length_take, List.length_drop]
    omega
  · rw [List.length_take, List.length_drop]
    omega
  · rw [hn, List.length_take, List.length_drop]
    omega
  · rw [chunk_append]
    exact hparts

/-- What the walker does at a chunk. -/
theorem walkPng_chunk (h : bytes.drop i = chunk.encode ++ rest) (hchunk : chunk.Fits) :
    walkPng bytes i saw =
      if chunk.kind = ascii "tEXt" then
        if saw || !isSnapshotTextChunk chunk.payload then refuse .metadataForbidden
        else walkPng bytes (i + chunk.encode.length) true
      else if chunk.kind ∈ pngForbidden then refuse .metadataForbidden
      else if isAncillary chunk.kind && !decide (chunk.kind ∈ pngKnownRendering) then
        refuse .metadataForbidden
      else if chunk.kind = ascii "IEND" then
        if rest = [] then .ok () else refuse .metadataForbidden
      else walkPng bytes (i + chunk.encode.length) saw := by
  have hlength := congrArg List.length h
  rw [List.length_drop, List.length_append, hchunk.length] at hlength
  have hstop : i + 12 + beNat chunk.size = i + chunk.encode.length := by
    rw [hchunk.length]
    omega
  have hlast : i + chunk.encode.length = bytes.length ↔ rest = [] := by
    rw [← List.length_eq_zero_iff]
    omega
  rw [chunk_append] at h
  have hkindPlace : bytes.drop (i + 4) = chunk.kind ++ (chunk.payload ++ (chunk.crc ++ rest)) := by
    rw [← hchunk.sizeWidth]
    exact drop_add_length h
  have hpayloadPlace : bytes.drop (i + 8) = chunk.payload ++ (chunk.crc ++ rest) := by
    have hplace := drop_add_length hkindPlace
    rw [hchunk.kindWidth] at hplace
    exact hplace
  have hpayload : slice bytes (i + 8) (i + 12 + beNat chunk.size - 4) = .ok chunk.payload :=
    slice_of_drop hpayloadPlace (by omega) (by rw [← hchunk.size]; omega)
  rw [walkPng, if_pos (by omega), if_neg (by omega),
    read_of_drop h (by omega) hchunk.sizeWidth.symm]
  simp only
  rw [read_of_drop hkindPlace (by omega) hchunk.kindWidth.symm]
  simp only
  rw [if_neg (by omega), hpayload]
  simp only [hstop, hlast]

theorem exists_chunk_of_walkPng (h : walkPng bytes i saw = .ok ()) :
    ∃ chunk : PngChunk, ∃ rest, chunk.Fits ∧ bytes.drop i = chunk.encode ++ rest := by
  rw [walkPng] at h
  split_ifs at h with hi hroom
  · cases h
  · have hsplit : bytes.drop i = (bytes.drop i).take 4 ++ (bytes.drop i).drop 4 :=
      (List.take_append_drop 4 _).symm
    have hwidth : ((bytes.drop i).take 4).length = 4 := by
      rw [List.length_take, List.length_drop]
      omega
    rw [read_of_drop hsplit hi.le hwidth.symm] at h
    simp only at h
    cases hkind : read bytes (i + 4) 4 with
    | error e =>
        rw [hkind] at h
        cases h
    | ok kind =>
        rw [hkind] at h
        simp only at h
        by_cases hlong : bytes.length < i + 12 + beNat ((bytes.drop i).take 4)
        · rw [if_pos hlong] at h
          cases h
        · refine exists_chunk ?_
          rw [List.length_drop]
          omega
  · cases h

theorem ascii_iend_passes :
    ascii "IEND" ≠ ascii "tEXt" ∧ ascii "IEND" ∉ pngForbidden ∧
      isAncillary (ascii "IEND") = false := by
  decide

theorem walkPng_step (bytes : List UInt8) (i : ℕ) (saw : Bool) :
    walkPng bytes i saw = .ok () ↔ PngEnd (bytes.drop i) ∨
      ∃ chunk rest, bytes.drop i = PngChunk.encode chunk ++ rest ∧
        ((chunk.Fits ∧ chunk.kind ≠ ascii "IEND") ∧ chunk.Passes saw) ∧
        walkPng bytes (i + chunk.encode.length) (chunk.next saw) = .ok () := by
  obtain ⟨htext, hforbidden, hcritical⟩ := ascii_iend_passes
  constructor
  · intro h
    obtain ⟨chunk, rest, hchunk, hdrop⟩ := exists_chunk_of_walkPng h
    rw [walkPng_chunk hdrop hchunk] at h
    by_cases htEXt : chunk.kind = ascii "tEXt"
    · rw [if_pos htEXt] at h
      split_ifs at h with hsnapshot
      · cases h
      · rw [Bool.or_eq_true, not_or, Bool.not_eq_true, Bool.not_eq_true,
          Bool.not_eq_false'] at hsnapshot
        refine .inr ⟨chunk, rest, hdrop, ⟨⟨hchunk, ?_⟩, ?_⟩, ?_⟩
        · rw [htEXt]
          exact htext.symm
        · rw [PngChunk.Passes, if_pos htEXt]
          exact hsnapshot
        · rw [PngChunk.next, htEXt, beq_self_eq_true, Bool.or_true]
          exact h
    · have hnext : chunk.next saw = saw := by
        rw [PngChunk.next, beq_false_of_ne htEXt, Bool.or_false]
      rw [if_neg htEXt] at h
      split_ifs at h with hnamed hprivate hiend hnil
      · cases h
      · cases h
      · subst hnil
        rw [List.append_nil] at hdrop
        exact .inl ⟨chunk, hchunk, hiend, hdrop⟩
      · cases h
      · refine .inr ⟨chunk, rest, hdrop, ⟨⟨hchunk, hiend⟩, ?_⟩, hnext.symm ▸ h⟩
        rw [PngChunk.Passes, if_neg htEXt]
        refine ⟨hnamed, fun hancillary => ?_⟩
        by_contra hunknown
        exact hprivate (by rw [hancillary, decide_eq_false hunknown]; rfl)
  · rintro (⟨last, hlast, hkind, heq⟩ | ⟨chunk, rest, heq, ⟨⟨hchunk, hnotLast⟩, hpasses⟩, hrest⟩)
    · rw [walkPng_chunk (heq.trans (List.append_nil _).symm) hlast, hkind, if_neg htext,
        if_neg hforbidden, hcritical]
      simp
    · rw [walkPng_chunk heq hchunk]
      rw [PngChunk.Passes] at hpasses
      by_cases htEXt : chunk.kind = ascii "tEXt"
      · rw [if_pos htEXt] at hpasses
        rw [PngChunk.next, htEXt, beq_self_eq_true, Bool.or_true] at hrest
        rw [if_pos htEXt, hpasses.1, hpasses.2]
        exact hrest
      · rw [if_neg htEXt] at hpasses
        rw [PngChunk.next, beq_false_of_ne htEXt, Bool.or_false] at hrest
        have hprivate : ¬(isAncillary chunk.kind && !decide (chunk.kind ∈ pngKnownRendering)) := by
          rw [Bool.and_eq_true, not_and, Bool.not_eq_true, Bool.not_eq_false']
          exact fun h => decide_eq_true (hpasses.2 h)
        rw [if_neg htEXt, if_neg hpasses.1, if_neg hprivate, if_neg hnotLast]
        exact hrest

theorem pngChunk_encode_ne_nil (h : chunk.Fits) : chunk.encode ≠ [] := by
  rw [← List.length_pos_iff, h.length]
  omega

theorem pngTiled_append {P : Bool → PngChunk → Prop} {chunks : List PngChunk} :
    PngTiled P (pngSig ++ text) chunks ↔ Tiled PngChunk.encode PngChunk.next
      (fun saw chunk _ => (chunk.Fits ∧ chunk.kind ≠ ascii "IEND") ∧ P saw chunk)
      (fun _ => PngEnd) false chunks text := by
  constructor
  · rintro ⟨_, heq, h⟩
    rw [List.append_cancel_left heq]
    exact h
  · exact fun h => ⟨text, rfl, h⟩

/-- An accepted file is a row of chunks that all pass, the last being `IEND`. -/
theorem validatePng_iff_tiled (bytes : List UInt8) :
    validatePngMetadataFree bytes = .ok () ↔
      ∃ chunks, PngTiled (fun saw chunk => chunk.Passes saw) bytes chunks := by
  unfold validatePngMetadataFree
  split_ifs with hprefix
  · refine iff_of_false (fun h => by cases h) ?_
    rintro ⟨chunks, tail, rfl, -⟩
    rw [Bool.eq_false_iff] at hprefix
    exact hprefix (List.isPrefixOf_iff_prefix.mpr (List.prefix_append _ _))
  · rw [Bool.not_eq_false, List.isPrefixOf_iff_prefix] at hprefix
    obtain ⟨tail, rfl⟩ := hprefix
    simp only [pngTiled_append]
    have hwalk := @ByteTiling.accepts_iff_tiled _ _ _ _ _ _ _ (pngSig ++ tail)
      (fun i saw => walkPng (pngSig ++ tail) i saw = .ok ())
      (fun h => pngChunk_encode_ne_nil h.1.1) (fun i _ saw => walkPng_step _ i saw)
      pngSig.length (by simp) false
    rw [List.drop_left] at hwalk
    exact hwalk

theorem pngChunks_unambiguous (P : Bool → PngChunk → Prop) :
    ByteTiling.Unambiguous PngChunk.encode
      (fun saw chunk _ => (chunk.Fits ∧ chunk.kind ≠ ascii "IEND") ∧ P saw chunk)
      (fun _ : Bool => PngEnd) where
  record hchunk hother heq := chunk_inj hchunk.1.1 hother.1.1 heq
  stop := by
    rintro saw chunk rest text ⟨⟨hchunk, hnotLast⟩, -⟩ ⟨last, hlast, hkind, rfl⟩ heq
    rw [← List.append_nil last.encode] at heq
    obtain rfl := chunk_inj hlast hchunk heq
    exact hnotLast hkind

theorem kind_lists :
    (∀ kind ∈ [ascii "IHDR", ascii "PLTE", ascii "IDAT"],
      kind ≠ ascii "tEXt" ∧ kind ∉ pngForbidden ∧ isAncillary kind = false) ∧
    (∀ kind ∈ pngKnownRendering,
      kind ≠ ascii "tEXt" ∧ kind ∉ pngForbidden ∧ isAncillary kind = true) ∧
    (∀ kind ∈ pngForbidden, isAncillary kind = true) ∧ isAncillary (ascii "tEXt") = true := by
  decide

/-- What the walker does not name is a chunk of the list, or an unknown critical one. -/
theorem png_passes_iff (hlast : chunk.kind ≠ ascii "IEND") :
    chunk.Passes saw ↔ chunk.Listed saw ∨ chunk.Unknown := by
  obtain ⟨hcritical, hknown, hforbidden, htext⟩ := kind_lists
  unfold PngChunk.Passes PngChunk.Listed PngChunk.Unknown
  split_ifs with htEXt
  · constructor
    · exact fun h => .inl (.inr (.inr ⟨htEXt, h⟩))
    · rintro ((hkind | hkind | ⟨-, h⟩) | ⟨hkind, -⟩)
      · exact absurd htEXt (hcritical _ hkind).1
      · exact absurd htEXt (hknown _ hkind).1
      · exact h
      · rw [htEXt, htext] at hkind
        cases hkind
  · constructor
    · rintro ⟨-, hkind⟩
      cases hancillary : isAncillary chunk.kind with
      | true => exact .inl (.inr (.inl (hkind hancillary)))
      | false =>
          by_cases hneeded : chunk.kind ∈ [ascii "IHDR", ascii "PLTE", ascii "IDAT"]
          · exact .inl (.inl hneeded)
          · refine .inr ⟨rfl, fun hmem => ?_⟩
            rcases List.mem_append.mp (show chunk.kind ∈
              [ascii "IHDR", ascii "PLTE", ascii "IDAT"] ++ [ascii "IEND"] from hmem) with h | h
            · exact hneeded h
            · exact hlast (List.mem_singleton.mp h)
    · rintro ((hkind | hkind | ⟨h, -⟩) | ⟨hkind, -⟩)
      · obtain ⟨-, hallowed, hbit⟩ := hcritical _ hkind
        exact ⟨hallowed, fun h => absurd h (by rw [hbit]; exact Bool.false_ne_true)⟩
      · exact ⟨(hknown _ hkind).2.1, fun _ => hkind⟩
      · exact absurd h htEXt
      · refine ⟨fun h => ?_, fun h => ?_⟩
        · rw [hforbidden _ h] at hkind
          cases hkind
        · rw [h] at hkind
          cases hkind

theorem not_unknown_of_listed (h : chunk.Listed saw) : ¬chunk.Unknown := by
  obtain ⟨-, hknown, -, htext⟩ := kind_lists
  rintro ⟨hkind, hother⟩
  rcases h with h | h | ⟨h, -⟩
  · exact hother (List.mem_append_left [ascii "IEND"] h)
  · rw [(hknown _ h).2.2] at hkind
    cases hkind
  · rw [h, htext] at hkind
    cases hkind

theorem png_listed_iff (bytes : List UInt8) :
    (validatePngMetadataFree bytes = .ok () →
        ∃ chunks, PngTiled (fun saw chunk => chunk.Listed saw) bytes chunks) ↔
      ¬PngCarriesUnknown bytes := by
  by_cases hprefix : ∃ tail, bytes = pngSig ++ tail
  · obtain ⟨tail, rfl⟩ := hprefix
    have hpasses : ∀ chunks, PngTiled (fun saw chunk => chunk.Passes saw) (pngSig ++ tail) chunks ↔
        PngTiled (fun saw chunk => chunk.Listed saw ∨ chunk.Unknown) (pngSig ++ tail) chunks := by
      intro chunks
      rw [pngTiled_append, pngTiled_append]
      constructor
      · exact fun h => h.mono fun s a _ rest ⟨hfits, hpass⟩ =>
          ⟨hfits, (png_passes_iff hfits.2).mp hpass⟩
      · exact fun h => h.mono fun s a _ rest ⟨hfits, hkind⟩ =>
          ⟨hfits, (png_passes_iff hfits.2).mpr hkind⟩
    have honly := @Tiled.only_iff _ _ _ _ PngChunk.next _ _ false tail
      (fun saw chunk => chunk.Listed saw) PngChunk.Unknown
      (pngChunks_unambiguous fun saw chunk => chunk.Listed saw ∨ chunk.Unknown)
      (fun h => ⟨not_unknown_of_listed, h.2.resolve_right⟩)
    have hlisted : ∀ chunks, PngTiled (fun saw chunk => chunk.Listed saw) (pngSig ++ tail) chunks ↔
        Tiled PngChunk.encode PngChunk.next (fun saw chunk _ =>
          ((chunk.Fits ∧ chunk.kind ≠ ascii "IEND") ∧ (chunk.Listed saw ∨ chunk.Unknown)) ∧
            chunk.Listed saw) (fun _ => PngEnd) false chunks tail := by
      intro chunks
      rw [pngTiled_append]
      constructor
      · exact fun h => h.mono fun s a _ rest ⟨hfits, hchunk⟩ => ⟨⟨hfits, .inl hchunk⟩, hchunk⟩
      · exact fun h => h.mono fun s a _ rest ⟨⟨hfits, _⟩, hchunk⟩ => ⟨hfits, hchunk⟩
    simp only [validatePng_iff_tiled, PngCarriesUnknown, hpasses, hlisted, pngTiled_append]
    exact honly
  · have hnone : ∀ P chunks, ¬PngTiled P bytes chunks := fun P chunks ⟨tail, heq, _⟩ =>
      hprefix ⟨tail, heq⟩
    simp only [validatePng_iff_tiled, PngCarriesUnknown, hnone, exists_false, false_and,
      false_implies, not_false_eq_true]

/-- What a picture needs is all that gets through, unless a JPEG file has a segment behind a
reserved marker or a PNG file has an unknown critical chunk. -/
theorem only_rendering_iff (bytes : List UInt8) :
    ((validateJpegMetadataFree bytes = .ok () →
          ∃ units, JpegTiled JpegUnit.Rendering bytes units) ∧
        (validatePngMetadataFree bytes = .ok () →
          ∃ chunks, PngTiled (fun saw chunk => chunk.Listed saw) bytes chunks)) ↔
      ¬JpegCarriesReserved bytes ∧ ¬PngCarriesUnknown bytes := by
  rw [jpeg_rendering_iff, png_listed_iff]

/-- A picture with a note behind the marker `JPG0`. -/
def reservedNote : List UInt8 :=
  [0xff, 0xd8, 0xff, 0xf0, 0x00, 0x04, 0x68, 0x69, 0xff, 0xd9]

theorem reservedNote_carried : JpegCarriesReserved reservedNote := by
  refine ⟨[.segment 0 0xf0 [0x00, 0x04] [0x68, 0x69]], ⟨_, rfl, ?_⟩, _, List.mem_cons_self .., ?_⟩
  · exact @Tiled.record _ _ _ _ _ _ _ _ _ _ [0xff, 0xd9]
      ⟨⟨by decide, by decide, by decide, by decide, by decide, by decide, by decide⟩,
        .inr (show isReserved 0xf0 = true by decide)⟩ (.stop ⟨0, rfl⟩)
  · exact show isReserved 0xf0 = true by decide

theorem reserved_note_accepted :
    ¬∀ bytes, (validateJpegMetadataFree bytes = .ok () →
          ∃ units, JpegTiled JpegUnit.Rendering bytes units) ∧
        (validatePngMetadataFree bytes = .ok () →
          ∃ chunks, PngTiled (fun saw chunk => chunk.Listed saw) bytes chunks) := by
  intro h
  exact (jpeg_rendering_iff reservedNote).mp (h reservedNote).1 reservedNote_carried

end PngWalk

end Buzz.Media
