import Buzz.StillImages

/-!
# Metadata in GIF and WebP files

Two more walkers of the same kind. The blocks of a GIF file have their sizes in several places, in
tables as long as a bit field says and in rows of short sub-blocks; a WebP file is cut into padded
chunks, and an animation frame again into chunks. The check of a `VP8X` chunk reads the byte where
its payload begins, which for an empty payload is the next chunk's.
-/

namespace Buzz.Media

open ByteTiling (leNat Tiled)

section GifCode

def skipSubBlocks (bytes : List UInt8) (i : ℕ) : Check ℕ :=
  match h : bytes[i]? with
  | none => refuse .invalidImage
  | some len =>
      if len = 0 then .ok (i + 1)
      else if bytes.length < i + 1 + len.toNat then refuse .invalidImage
      else skipSubBlocks bytes (i + 1 + len.toNat)
termination_by bytes.length - i
decreasing_by
  have := (List.getElem?_eq_some_iff.mp h).1
  omega

/-- The bytes of a colour table; a table is there if the highest bit is. -/
def tableLen (packed : UInt8) : ℕ :=
  if packed &&& 0x80 ≠ 0 then 3 <<< ((packed &&& 0x07).toNat + 1) else 0

/-- Behind an image descriptor at `i`, its table and its data. -/
def skipImage (bytes : List UInt8) (i : ℕ) : Check ℕ :=
  if bytes.length < i + 10 then refuse .invalidImage
  else
    match byteAt bytes (i + 9) with
    | .error e => .error e
    | .ok packed =>
        if bytes.length < i + 10 + tableLen packed then refuse .invalidImage
        else if bytes.length < i + 10 + tableLen packed + 1 then refuse .invalidImage
        else skipSubBlocks bytes (i + 10 + tableLen packed + 1)

/-- Behind a graphic control extension whose label ends at `i`. -/
def skipControl (bytes : List UInt8) (i : ℕ) : Check ℕ :=
  if bytes[i]? ≠ some 4 then refuse .invalidImage
  else if bytes.length < i + 6 then refuse .invalidImage
  else
    match byteAt bytes (i + 5) with
    | .error e => .error e
    | .ok last => if last ≠ 0 then refuse .invalidImage else .ok (i + 6)

def loopApps : List (List UInt8) := [ascii "NETSCAPE2.0", ascii "ANIMEXTS1.0"]

local instance bytesLawful : LawfulBEq (List UInt8) := inferInstance

/-- Behind an application extension whose label ends at `i`. -/
def skipApp (bytes : List UInt8) (i : ℕ) : Check ℕ :=
  if bytes[i]? ≠ some 11 ∨ bytes.length < i + 12 then refuse .invalidImage
  else
    match slice bytes (i + 1) (i + 12) with
    | .error e => .error e
    | .ok app =>
        if app ∉ loopApps then refuse .metadataForbidden
        else if bytes[i + 12]? ≠ some 3 ∨ bytes[i + 13]? ≠ some 1 ∨ bytes[i + 16]? ≠ some 0 then
          refuse .metadataForbidden
        else .ok (i + 17)

def skipExtension (bytes : List UInt8) (i : ℕ) : Check ℕ :=
  match bytes[i + 1]? with
  | none => refuse .invalidImage
  | some label =>
      if label = 0xf9 then skipControl bytes (i + 2)
      else if label = 0xff then skipApp bytes (i + 2)
      else refuse .metadataForbidden

theorem lt_of_skipSubBlocks {bytes : List UInt8} {i j : ℕ} (h : skipSubBlocks bytes i = .ok j) :
    i < j := by
  fun_induction skipSubBlocks bytes i with
  | case1 i hnone => cases h
  | case2 i hsome => cases h; omega
  | case3 i len hsome hlen hlong => cases h
  | case4 i len hsome hlen hlong ih => have := ih h; omega

theorem lt_of_skipImage {bytes : List UInt8} {i j : ℕ} (h : skipImage bytes i = .ok j) : i < j := by
  unfold skipImage at h
  split_ifs at h with hroom
  · cases h
  · split at h
    · cases h
    · split_ifs at h
      · cases h
      · cases h
      · have := lt_of_skipSubBlocks h
        omega

theorem lt_of_skipControl {bytes : List UInt8} {i j : ℕ} (h : skipControl bytes i = .ok j) :
    i < j := by
  unfold skipControl at h
  split_ifs at h
  · cases h
  · cases h
  · split at h
    · cases h
    · split_ifs at h
      · cases h
      · cases h
        omega

theorem lt_of_skipApp {bytes : List UInt8} {i j : ℕ} (h : skipApp bytes i = .ok j) : i < j := by
  unfold skipApp at h
  split at h
  · cases h
  · split at h
    · cases h
    · split_ifs at h
      · cases h
      · cases h
        omega
      · cases h

theorem lt_of_skipExtension {bytes : List UInt8} {i j : ℕ} (h : skipExtension bytes i = .ok j) :
    i < j := by
  unfold skipExtension at h
  split at h
  · cases h
  · split_ifs at h
    · have := lt_of_skipControl h
      omega
    · have := lt_of_skipApp h
      omega
    · cases h

def walkGif (bytes : List UInt8) (i : ℕ) : Check Unit :=
  match _hbyte : bytes[i]? with
  | none => refuse .invalidImage
  | some byte =>
      if byte = 0x2c then
        match _h : skipImage bytes i with
        | .error e => .error e
        | .ok j => walkGif bytes j
      else if byte = 0x21 then
        match _h : skipExtension bytes i with
        | .error e => .error e
        | .ok j => walkGif bytes j
      else if byte = 0x3b then
        if i + 1 = bytes.length then .ok () else refuse .metadataForbidden
      else refuse .invalidImage
termination_by bytes.length - i
decreasing_by
  · have := (List.getElem?_eq_some_iff.mp _hbyte).1
    have := lt_of_skipImage _h
    omega
  · have := (List.getElem?_eq_some_iff.mp _hbyte).1
    have := lt_of_skipExtension _h
    omega

def validateGifMetadataFree (bytes : List UInt8) : Check Unit :=
  if ((ascii "GIF87a").isPrefixOf bytes || (ascii "GIF89a").isPrefixOf bytes) = false ∨
      bytes.length < 13 then refuse .invalidImage
  else
    match byteAt bytes 10 with
    | .error e => .error e
    | .ok packed =>
        if bytes.length < 13 + tableLen packed then refuse .invalidImage
        else walkGif bytes (13 + tableLen packed)

end GifCode

section GifGrammar

/-- Data in pieces, each behind its length. -/
def subBlocks (data : List (List UInt8)) : List UInt8 :=
  data.flatMap fun block => UInt8.ofNat block.length :: block

inductive GifBlock where
  | image (place : List UInt8) (packed : UInt8) (table : List UInt8) (codeSize : UInt8)
      (data : List (List UInt8))
  | control (state : List UInt8)
  | loop (app count : List UInt8)
  deriving DecidableEq, Repr

namespace GifBlock

def encode : GifBlock → List UInt8
  | image place packed table codeSize data =>
      0x2c :: (place ++ packed :: (table ++ codeSize :: (subBlocks data ++ [0])))
  | control state => 0x21 :: 0xf9 :: 4 :: (state ++ [0])
  | loop app count => 0x21 :: 0xff :: 11 :: (app ++ 3 :: 1 :: (count ++ [0]))

def Fits : GifBlock → Prop
  | image place packed table _ data =>
      place.length = 8 ∧ table.length = tableLen packed ∧
        ∀ block ∈ data, 0 < block.length ∧ block.length < 256
  | control state => state.length = 4
  | loop app count => app ∈ loopApps ∧ count.length = 2

end GifBlock

structure GifHead where
  signature : List UInt8
  screen : List UInt8
  packed : UInt8
  colours : List UInt8
  table : List UInt8

namespace GifHead

def encode (head : GifHead) : List UInt8 :=
  head.signature ++ head.screen ++ head.packed :: (head.colours ++ head.table)

structure Fits (head : GifHead) : Prop where
  signature : head.signature = ascii "GIF87a" ∨ head.signature = ascii "GIF89a"
  screen : head.screen.length = 4
  colours : head.colours.length = 2
  table : head.table.length = tableLen head.packed

end GifHead

/-- The header, a row of blocks, and the trailer as the last byte. -/
def GifFile (bytes : List UInt8) : Prop :=
  ∃ head : GifHead, ∃ tail blocks, head.Fits ∧ bytes = head.encode ++ tail ∧
    Tiled GifBlock.encode (fun _ _ => ()) (fun _ block _ => block.Fits)
      (fun _ rest => rest = [0x3b])
      () blocks tail

end GifGrammar

section GifWalk

variable {bytes text rest : List UInt8} {i j : ℕ}

theorem skipSubBlocks_of_some {len : UInt8} (h : bytes[i]? = some len) :
    skipSubBlocks bytes i =
      if len = 0 then .ok (i + 1)
      else if bytes.length < i + 1 + len.toNat then refuse .invalidImage
      else skipSubBlocks bytes (i + 1 + len.toNat) := by
  rw [skipSubBlocks]
  split
  · next hnone =>
      rw [h] at hnone
      cases hnone
  · next hsome =>
      rw [h] at hsome
      cases hsome
      rfl

theorem subBlocks_cons (block : List UInt8) (data : List (List UInt8)) :
    subBlocks (block :: data) = UInt8.ofNat block.length :: (block ++ subBlocks data) :=
  rfl

theorem skipSubBlocks_append {data : List (List UInt8)}
    (hdata : ∀ block ∈ data, 0 < block.length ∧ block.length < 256)
    (h : bytes.drop i = subBlocks data ++ 0 :: rest) :
    skipSubBlocks bytes i = .ok (i + (subBlocks data).length + 1) := by
  induction data generalizing i with
  | nil =>
      rw [skipSubBlocks_of_some (getElem?_of_drop h), if_pos rfl]
      rfl
  | cons block data ih =>
      obtain ⟨⟨hpos, hshort⟩, hdata⟩ := List.forall_mem_cons.mp hdata
      rw [subBlocks_cons, List.cons_append, List.append_assoc] at h
      have hlen : (UInt8.ofNat block.length).toNat = block.length := by
        rw [UInt8.toNat_ofNat']
        exact Nat.mod_eq_of_lt hshort
      have hne : UInt8.ofNat block.length ≠ 0 := by
        intro hzero
        rw [hzero] at hlen
        exact hpos.ne hlen
      obtain ⟨hlt, -, hblock⟩ := drop_cons h
      have hlength := congrArg List.length hblock
      rw [List.length_drop, List.length_append] at hlength
      rw [skipSubBlocks_of_some (getElem?_of_drop h), if_neg hne, hlen, if_neg (by omega),
        ih hdata (drop_add_length hblock), subBlocks_cons, List.length_cons, List.length_append]
      congr 1
      omega

/-- What the walker skips is a row of sub-blocks. -/
theorem exists_subBlocks (h : skipSubBlocks bytes i = .ok j) :
    ∃ data rest, (∀ block ∈ data, 0 < block.length ∧ block.length < 256) ∧
      bytes.drop i = subBlocks data ++ 0 :: rest := by
  fun_induction skipSubBlocks bytes i with
  | case1 i hnone => cases h
  | case2 i hsome => exact ⟨[], _, by simp, drop_of_getElem? hsome⟩
  | case3 i len hsome hlen hlong => cases h
  | case4 i len hsome hlen hlong ih =>
      obtain ⟨data, rest, hdata, hrest⟩ := ih h
      have hsplit := drop_split bytes (i + 1) len.toNat
      have hblock : ((bytes.drop (i + 1)).take len.toNat).length = len.toNat := by
        rw [List.length_take, List.length_drop]
        omega
      rw [hrest] at hsplit
      generalize (bytes.drop (i + 1)).take len.toNat = block at hsplit hblock
      have hpos : 0 < len.toNat := Nat.pos_of_ne_zero fun hzero => hlen (UInt8.toNat_inj.mp hzero)
      refine ⟨block :: data, rest, List.forall_mem_cons.mpr ⟨?_, hdata⟩, ?_⟩
      · rw [hblock]
        exact ⟨hpos, len.toNat_lt⟩
      · rw [drop_of_getElem? hsome, hsplit, subBlocks_cons, hblock, UInt8.ofNat_toNat,
          List.cons_append, List.append_assoc]

theorem image_append (place : List UInt8) (packed : UInt8) (table : List UInt8) (codeSize : UInt8)
    (data : List (List UInt8)) (rest : List UInt8) :
    (GifBlock.image place packed table codeSize data).encode ++ rest =
      0x2c :: (place ++ packed :: (table ++ codeSize :: (subBlocks data ++ 0 :: rest))) := by
  simp only [GifBlock.encode, List.cons_append, List.append_assoc, List.nil_append]

theorem control_append (state rest : List UInt8) :
    (GifBlock.control state).encode ++ rest = 0x21 :: 0xf9 :: 4 :: (state ++ 0 :: rest) := by
  simp only [GifBlock.encode, List.cons_append, List.append_assoc, List.nil_append]

theorem loop_append (app count rest : List UInt8) :
    (GifBlock.loop app count).encode ++ rest =
      0x21 :: 0xff :: 11 :: (app ++ 3 :: 1 :: (count ++ 0 :: rest)) := by
  simp only [GifBlock.encode, List.cons_append, List.append_assoc, List.nil_append]

theorem skipImage_append {place table : List UInt8} {packed codeSize : UInt8}
    {data : List (List UInt8)} (hfits : (GifBlock.image place packed table codeSize data).Fits)
    (h : bytes.drop i = (GifBlock.image place packed table codeSize data).encode ++ rest) :
    skipImage bytes i =
      .ok (i + (GifBlock.image place packed table codeSize data).encode.length) := by
  obtain ⟨hplace, htable, hdata⟩ := hfits
  have hlength := congrArg List.length h
  simp only [GifBlock.encode, List.length_drop, List.length_append, List.length_cons,
    List.length_nil] at hlength
  rw [image_append] at h
  obtain ⟨-, -, hbody⟩ := drop_cons h
  have hpacked := drop_add_length hbody
  rw [hplace] at hpacked
  obtain ⟨hlt, hbyte, hrest⟩ := drop_cons hpacked
  have htail := drop_add_length hrest
  obtain ⟨-, -, hsubBlocks⟩ := drop_cons htail
  rw [htable] at hsubBlocks
  rw [skipImage, if_neg (by omega), byteAt_lt (i := i + 9) hlt]
  simp only [hbyte]
  rw [if_neg (by omega), if_neg (by omega), skipSubBlocks_append hdata hsubBlocks]
  congr 1
  simp only [GifBlock.encode, List.length_append, List.length_cons, List.length_nil]
  omega

theorem exists_image (hbyte : bytes[i]? = some 0x2c) (h : skipImage bytes i = .ok j) :
    ∃ block rest, GifBlock.Fits block ∧ bytes.drop i = block.encode ++ rest := by
  unfold skipImage at h
  split at h
  · cases h
  · next hroom =>
      have hlt : i + 9 < bytes.length := by omega
      rw [byteAt_lt hlt] at h
      simp only at h
      split_ifs at h with hlong hcode
      · cases h
      · cases h
      · obtain ⟨place, hplace, hplaceEq⟩ := exists_take bytes (i := i + 1) (k := 8) (by omega)
        obtain ⟨table, htable, htableEq⟩ := exists_take bytes (i := i + 10)
          (k := tableLen bytes[i + 9]) (by omega)
        have hcodeLt : i + 10 + tableLen bytes[i + 9] < bytes.length := by omega
        obtain ⟨data, rest, hdata, hrest⟩ := exists_subBlocks h
        refine ⟨.image place bytes[i + 9] table bytes[i + 10 + tableLen bytes[i + 9]] data, rest,
          ⟨hplace, htable, hdata⟩, ?_⟩
        rw [drop_of_getElem? hbyte, hplaceEq, List.drop_eq_getElem_cons hlt, htableEq,
          List.drop_eq_getElem_cons hcodeLt, hrest, image_append]

theorem skipExtension_control {state : List UInt8} (hstate : state.length = 4)
    (h : bytes.drop i = (GifBlock.control state).encode ++ rest) :
    skipExtension bytes i = .ok (i + (GifBlock.control state).encode.length) := by
  have hlength := congrArg List.length h
  simp only [GifBlock.encode, List.length_drop, List.length_append, List.length_cons,
    List.length_nil] at hlength
  rw [control_append] at h
  obtain ⟨-, -, hlabel⟩ := drop_cons h
  obtain ⟨-, -, hsize⟩ := drop_cons hlabel
  obtain ⟨-, -, hbody⟩ := drop_cons hsize
  have hlast := drop_add_length hbody
  rw [hstate] at hlast
  obtain ⟨hlt, hvalue, -⟩ := drop_cons hlast
  rw [skipExtension, getElem?_of_drop hlabel]
  simp only [if_true]
  rw [skipControl, getElem?_of_drop hsize, if_neg (not_not.mpr rfl), if_neg (by omega),
    byteAt_lt (i := i + 2 + 5) hlt]
  simp only [hvalue, ne_eq, not_true, if_false]
  simp only [GifBlock.encode, List.length_append, List.length_cons, List.length_nil, hstate]

theorem skipExtension_loop {app count : List UInt8} (happ : app ∈ loopApps)
    (hcount : count.length = 2) (h : bytes.drop i = (GifBlock.loop app count).encode ++ rest) :
    skipExtension bytes i = .ok (i + (GifBlock.loop app count).encode.length) := by
  have hwidth : app.length = 11 := by
    have hall : ∀ app ∈ loopApps, app.length = 11 := by decide
    exact hall app happ
  have hlength := congrArg List.length h
  simp only [GifBlock.encode, List.length_drop, List.length_append, List.length_cons,
    List.length_nil] at hlength
  rw [loop_append] at h
  obtain ⟨-, -, hlabel⟩ := drop_cons h
  obtain ⟨-, -, hsize⟩ := drop_cons hlabel
  obtain ⟨-, -, hbody⟩ := drop_cons hsize
  have hthree := drop_add_length hbody
  rw [hwidth] at hthree
  obtain ⟨-, -, hone⟩ := drop_cons hthree
  obtain ⟨-, -, hloops⟩ := drop_cons hone
  have hzero := drop_add_length hloops
  rw [hcount] at hzero
  have hnotLabel : (0xff : UInt8) ≠ 0xf9 := by decide
  rw [skipExtension, getElem?_of_drop hlabel]
  simp only [hnotLabel, if_true, if_false]
  rw [skipApp, getElem?_of_drop hsize, if_neg (by rintro (h | h); exact h rfl; omega),
    slice_of_drop hbody (by omega) (by omega)]
  simp only
  rw [if_neg (not_not.mpr happ), getElem?_of_drop (i := i + 2 + 12) hthree,
    getElem?_of_drop (i := i + 2 + 13) hone, getElem?_of_drop (i := i + 2 + 16) hzero]
  simp only [GifBlock.encode, List.length_append, List.length_cons, List.length_nil, hwidth, hcount]
  simp

theorem exists_control (hbyte : bytes[i]? = some 0x21) (hlabel : bytes[i + 1]? = some 0xf9)
    (h : skipControl bytes (i + 2) = .ok j) :
    ∃ block rest, GifBlock.Fits block ∧ bytes.drop i = block.encode ++ rest := by
  unfold skipControl at h
  split at h
  · cases h
  · next hsize =>
      split at h
      · cases h
      · next hroom =>
          have hlt : i + 2 + 5 < bytes.length := by omega
          rw [byteAt_lt hlt] at h
          simp only at h
          split_ifs at h with hlast
          · cases h
          · rw [not_not] at hsize hlast
            obtain ⟨state, hstate, hstateEq⟩ :=
              exists_take bytes (i := i + 2 + 1) (k := 4) (by omega)
            refine ⟨.control state, bytes.drop (i + 2 + 5 + 1), hstate, ?_⟩
            rw [control_append, drop_of_getElem? hbyte, drop_of_getElem? hlabel,
              drop_of_getElem? (i := i + 1 + 1) hsize, hstateEq,
                List.drop_eq_getElem_cons hlt, hlast]

theorem exists_loop (hbyte : bytes[i]? = some 0x21) (hlabel : bytes[i + 1]? = some 0xff)
    (h : skipApp bytes (i + 2) = .ok j) :
    ∃ block rest, GifBlock.Fits block ∧ bytes.drop i = block.encode ++ rest := by
  unfold skipApp at h
  split at h
  · cases h
  · next hroom =>
      rw [not_or, not_not, Nat.not_lt] at hroom
      obtain ⟨hsize, hroom⟩ := hroom
      obtain ⟨app, happ, happEq⟩ := exists_take bytes (i := i + 2 + 1) (k := 11) (by omega)
      rw [slice_of_drop happEq (by omega) (by omega)] at h
      simp only at h
      split at h
      · cases h
      · next hknown =>
          split at h
          · cases h
          · next hshape =>
              rw [not_or, not_or, not_not, not_not, not_not] at hshape
              obtain ⟨hthree, hone, hzero⟩ := hshape
              have hlt := (List.getElem?_eq_some_iff.mp hzero).1
              obtain ⟨count, hcount, hcountEq⟩ := exists_take bytes (i := i + 2 + 13 + 1) (k := 2)
                (by omega)
              refine ⟨.loop app count, bytes.drop (i + 2 + 16 + 1), ⟨not_not.mp hknown, hcount⟩, ?_⟩
              rw [loop_append, drop_of_getElem? hbyte, drop_of_getElem? hlabel,
                drop_of_getElem? (i := i + 1 + 1) hsize, happEq,
                drop_of_getElem? (i := i + 2 + 1 + 11) hthree,
                drop_of_getElem? (i := i + 2 + 1 + 11 + 1) hone, hcountEq,
                drop_of_getElem? (i := i + 2 + 13 + 1 + 2) hzero]

theorem exists_extension (hbyte : bytes[i]? = some 0x21) (h : skipExtension bytes i = .ok j) :
    ∃ block rest, GifBlock.Fits block ∧ bytes.drop i = block.encode ++ rest := by
  unfold skipExtension at h
  split at h
  · cases h
  · next label hlabel =>
      split_ifs at h with hcontrol happ
      · exact exists_control hbyte (hcontrol ▸ hlabel) h
      · exact exists_loop hbyte (happ ▸ hlabel) h
      · cases h

theorem walkGif_of_some {byte : UInt8} (h : bytes[i]? = some byte) :
    walkGif bytes i =
      if byte = 0x2c then
        match skipImage bytes i with
        | .error e => .error e
        | .ok j => walkGif bytes j
      else if byte = 0x21 then
        match skipExtension bytes i with
        | .error e => .error e
        | .ok j => walkGif bytes j
      else if byte = 0x3b then
        if i + 1 = bytes.length then .ok () else refuse .metadataForbidden
      else refuse .invalidImage := by
  rw [walkGif]
  split
  · next hnone =>
      rw [h] at hnone
      cases hnone
  · next hsome =>
      rw [h] at hsome
      cases hsome
      split_ifs
      · split <;> simp_all
      · split <;> simp_all
      · rfl
      · rfl
      · rfl

/-- The walker goes on behind a block. -/
theorem walkGif_block {block : GifBlock} (hfits : block.Fits)
    (h : bytes.drop i = block.encode ++ rest) :
    walkGif bytes i = walkGif bytes (i + block.encode.length) := by
  cases block with
  | image place packed table codeSize data =>
      have hskip := skipImage_append hfits h
      rw [image_append] at h
      rw [walkGif_of_some (getElem?_of_drop h), if_pos rfl, hskip]
  | control state =>
      have hskip := skipExtension_control hfits h
      rw [control_append] at h
      rw [walkGif_of_some (getElem?_of_drop h), if_neg (by decide), if_pos rfl, hskip]
  | loop app count =>
      have hskip := skipExtension_loop hfits.1 hfits.2 h
      rw [loop_append] at h
      rw [walkGif_of_some (getElem?_of_drop h), if_neg (by decide), if_pos rfl, hskip]

theorem walkGif_step (bytes : List UInt8) (i : ℕ) :
    walkGif bytes i = .ok () ↔ bytes.drop i = [0x3b] ∨
      ∃ block rest, bytes.drop i = GifBlock.encode block ++ rest ∧ block.Fits ∧
        walkGif bytes (i + block.encode.length) = .ok () := by
  constructor
  · intro h
    cases hbyte : bytes[i]? with
    | none =>
        rw [walkGif] at h
        split at h
        · cases h
        · next hsome =>
            rw [hbyte] at hsome
            cases hsome
    | some byte =>
        have hblock : ∀ block rest, GifBlock.Fits block → bytes.drop i = block.encode ++ rest →
            ∃ block rest, bytes.drop i = GifBlock.encode block ++ rest ∧ block.Fits ∧
              walkGif bytes (i + block.encode.length) = .ok () := fun block rest hfits heq =>
          ⟨block, rest, heq, hfits, walkGif_block hfits heq ▸ h⟩
        have hwalk := h
        rw [walkGif_of_some hbyte] at hwalk
        split_ifs at hwalk with himage hextension htrailer hlast
        · subst himage
          split at hwalk
          · cases hwalk
          · next hskip =>
              obtain ⟨block, rest, hfits, heq⟩ := exists_image hbyte hskip
              exact .inr (hblock block rest hfits heq)
        · subst hextension
          split at hwalk
          · cases hwalk
          · next hskip =>
              obtain ⟨block, rest, hfits, heq⟩ := exists_extension hbyte hskip
              exact .inr (hblock block rest hfits heq)
        · rw [drop_of_getElem? hbyte, htrailer, hlast, List.drop_length]
          exact .inl rfl
        · cases hwalk
        · cases hwalk
  · rintro (h | ⟨block, rest, heq, hfits, hrest⟩)
    · have hlength := congrArg List.length h
      rw [List.length_drop, List.length_singleton] at hlength
      rw [walkGif_of_some (getElem?_of_drop h), if_neg (by decide), if_neg (by decide), if_pos rfl,
        if_pos (by omega)]
    · rw [walkGif_block hfits heq]
      exact hrest

theorem GifHead.Fits.length {head : GifHead} (h : head.Fits) :
    head.encode.length = 13 + tableLen head.packed := by
  have hsignature : head.signature.length = 6 := by
    rcases h.signature with heq | heq <;> rw [heq] <;> rfl
  have := h.screen
  have := h.colours
  have := h.table
  simp only [GifHead.encode, List.length_append, List.length_cons]
  omega

theorem gifHead_append (head : GifHead) (tail : List UInt8) :
    head.encode ++ tail = head.signature ++
      (head.screen ++ head.packed :: (head.colours ++ (head.table ++ tail))) := by
  simp only [GifHead.encode, List.cons_append, List.append_assoc]

/-- The header is read where it stands. -/
theorem validateGif_append {head : GifHead} {tail : List UInt8} (h : head.Fits) :
    validateGifMetadataFree (head.encode ++ tail) =
      walkGif (head.encode ++ tail) head.encode.length := by
  have hlength := h.length
  have hall : (head.encode ++ tail).length = head.encode.length + tail.length := List.length_append
  have hsignature : head.signature.length = 6 := by
    rcases h.signature with heq | heq <;> rw [heq] <;> rfl
  have hsigned : ((ascii "GIF87a").isPrefixOf (head.encode ++ tail) ||
      (ascii "GIF89a").isPrefixOf (head.encode ++ tail)) = true := by
    rw [Bool.or_eq_true, List.isPrefixOf_iff_prefix, List.isPrefixOf_iff_prefix, gifHead_append]
    rcases h.signature with heq | heq
    · exact .inl (heq ▸ List.prefix_append _ _)
    · exact .inr (heq ▸ List.prefix_append _ _)
  have htext : (head.encode ++ tail).drop 0 = (head.signature ++ head.screen) ++
      head.packed :: (head.colours ++ (head.table ++ tail)) := by
    rw [List.drop_zero, gifHead_append, List.append_assoc]
  have hpacked := drop_add_length htext
  rw [List.length_append, hsignature, h.screen] at hpacked
  obtain ⟨hlt, hvalue, -⟩ := drop_cons hpacked
  rw [validateGifMetadataFree, if_neg, byteAt_lt (i := 10) hlt]
  · simp only [hvalue]
    rw [if_neg (by omega), hlength]
  · rintro (hnot | hshort)
    · rw [hsigned] at hnot
      cases hnot
    · omega

/-- What the header check lets through begins with a header. -/
theorem exists_gifHead (h : validateGifMetadataFree bytes = .ok ()) :
    ∃ head : GifHead, ∃ tail, head.Fits ∧ bytes = head.encode ++ tail := by
  unfold validateGifMetadataFree at h
  split at h
  · cases h
  · next hhead =>
      rw [not_or, Bool.not_eq_false, Bool.or_eq_true, List.isPrefixOf_iff_prefix,
        List.isPrefixOf_iff_prefix, Nat.not_lt] at hhead
      obtain ⟨hsigned, hlength⟩ := hhead
      obtain ⟨signature, tail, rfl, hsignature⟩ : ∃ signature tail, bytes = signature ++ tail ∧
          (signature = ascii "GIF87a" ∨ signature = ascii "GIF89a") := by
        rcases hsigned with ⟨tail, rfl⟩ | ⟨tail, rfl⟩
        · exact ⟨_, tail, rfl, .inl rfl⟩
        · exact ⟨_, tail, rfl, .inr rfl⟩
      have hwidth : signature.length = 6 := by
        rcases hsignature with heq | heq <;> rw [heq] <;> rfl
      have hlt : 10 < (signature ++ tail).length := by omega
      rw [byteAt_lt hlt] at h
      simp only at h
      split_ifs at h with htable
      · cases h
      · generalize hbytes : signature ++ tail = bytes at *
        obtain ⟨screen, hscreen, hscreenEq⟩ := exists_take bytes (i := 6) (k := 4) (by omega)
        obtain ⟨colours, hcolours, hcoloursEq⟩ := exists_take bytes (i := 11) (k := 2) (by omega)
        obtain ⟨table, htableLen, htableEq⟩ := exists_take bytes (i := 13)
          (k := tableLen bytes[10]) (by omega)
        have hbody : bytes.drop 6 = tail := by
          rw [← hbytes, ← hwidth, List.drop_left]
        refine ⟨⟨signature, screen, bytes[10], colours, table⟩,
          bytes.drop (13 + tableLen bytes[10]), ⟨hsignature, hscreen, hcolours, htableLen⟩, ?_⟩
        rw [gifHead_append, ← htableEq, ← hcoloursEq, ← List.drop_eq_getElem_cons hlt, ← hscreenEq,
          hbody, hbytes]

/-- A GIF file is accepted exactly when it is made as the format says. -/
theorem validateGif_iff (bytes : List UInt8) :
    validateGifMetadataFree bytes = .ok () ↔ GifFile bytes := by
  have hwalk : ∀ {head : GifHead} {tail : List UInt8}, head.Fits →
      (validateGifMetadataFree (head.encode ++ tail) = .ok () ↔
        ∃ blocks, Tiled GifBlock.encode (fun _ _ => ()) (fun _ block _ => block.Fits)
          (fun _ rest => rest = [0x3b]) () blocks tail) := by
    intro head tail hhead
    have hiff := @ByteTiling.accepts_iff_tiled _ _ _ GifBlock.encode (fun _ _ => ())
      (fun _ block _ => GifBlock.Fits block) (fun _ rest => rest = [0x3b]) (head.encode ++ tail)
      (fun i (_ : Unit) => walkGif (head.encode ++ tail) i = .ok ())
      (fun {_ block _} _ => by cases block <;> exact List.cons_ne_nil _ _)
      (fun i _ _ => walkGif_step _ i) head.encode.length (by rw [List.length_append]; omega) ()
    rw [List.drop_left] at hiff
    rw [validateGif_append hhead]
    exact hiff
  constructor
  · intro h
    obtain ⟨head, tail, hhead, rfl⟩ := exists_gifHead h
    obtain ⟨blocks, hblocks⟩ := (hwalk hhead).mp h
    exact ⟨head, tail, blocks, hhead, rfl, hblocks⟩
  · rintro ⟨head, tail, blocks, hhead, rfl, hblocks⟩
    exact (hwalk hhead).mpr ⟨blocks, hblocks⟩

theorem refuse_inRange {α : Type} (e : MediaError) : refuse (α := α) e ≠ .error .outOfRange :=
  fun h => by cases h

theorem slice_inRange (hi : i ≤ j) (hj : j ≤ bytes.length) :
    slice bytes i j = .ok ((bytes.drop i).take (j - i)) := by
  rw [slice, if_pos ⟨hi, hj⟩]

theorem skipSubBlocks_inRange (bytes : List UInt8) (i : ℕ) :
    skipSubBlocks bytes i ≠ .error .outOfRange := by
  fun_induction skipSubBlocks bytes i with
  | case1 i hnone => exact refuse_inRange _
  | case2 i hsome => exact fun h => by cases h
  | case3 i len hsome hlen hlong => exact refuse_inRange _
  | case4 i len hsome hlen hlong ih => exact ih

theorem skipImage_inRange (bytes : List UInt8) (i : ℕ) :
    skipImage bytes i ≠ .error .outOfRange := by
  unfold skipImage
  split
  · exact refuse_inRange _
  · rw [byteAt_lt (by omega)]
    simp only
    split_ifs
    · exact refuse_inRange _
    · exact refuse_inRange _
    · exact skipSubBlocks_inRange _ _

theorem skipExtension_inRange (bytes : List UInt8) (i : ℕ) :
    skipExtension bytes i ≠ .error .outOfRange := by
  unfold skipExtension
  split
  · exact refuse_inRange _
  · split_ifs
    · unfold skipControl
      split
      · exact refuse_inRange _
      · split
        · exact refuse_inRange _
        · rw [byteAt_lt (by omega)]
          simp only
          split_ifs
          · exact refuse_inRange _
          · exact fun h => by cases h
    · unfold skipApp
      split
      · exact refuse_inRange _
      · next hroom =>
          rw [slice_inRange (by omega) (by omega)]
          simp only
          split_ifs
          · exact refuse_inRange _
          · exact fun h => by cases h
          · exact refuse_inRange _
    · exact refuse_inRange _

theorem walkGif_inRange (bytes : List UInt8) (i : ℕ) : walkGif bytes i ≠ .error .outOfRange := by
  induction hn : bytes.length - i using Nat.strong_induction_on generalizing i with
  | _ n ih =>
      cases hbyte : bytes[i]? with
      | none =>
          rw [walkGif]
          split
          · exact refuse_inRange _
          · next hsome =>
              rw [hbyte] at hsome
              cases hsome
      | some byte =>
          have hlt := (List.getElem?_eq_some_iff.mp hbyte).1
          rw [walkGif_of_some hbyte]
          split_ifs
          · split
            · next hskip => exact fun h => skipImage_inRange bytes i (by cases h; exact hskip)
            · next j hskip =>
                have := lt_of_skipImage hskip
                exact ih (bytes.length - j) (by omega) j rfl
          · split
            · next hskip => exact fun h => skipExtension_inRange bytes i (by cases h; exact hskip)
            · next j hskip =>
                have := lt_of_skipExtension hskip
                exact ih (bytes.length - j) (by omega) j rfl
          · exact fun h => by cases h
          · exact refuse_inRange _
          · exact refuse_inRange _

/-- No index of the GIF walker is out of range. -/
theorem validateGif_inRange (bytes : List UInt8) :
    validateGifMetadataFree bytes ≠ .error .outOfRange := by
  unfold validateGifMetadataFree
  split
  · exact refuse_inRange _
  · rw [byteAt_lt (by omega)]
    simp only
    split_ifs
    · exact refuse_inRange _
    · exact walkGif_inRange _ _

end GifWalk

section WebpCode

/-- The frame header and then its chunks, an `ALPH` and one image. -/
def walkFrame (payload : List UInt8) (i : ℕ) (sawAlpha sawImage : Bool) : Check Unit :=
  if i < payload.length then
    if payload.length < i + 8 then refuse .invalidImage
    else
      match read payload i 4 with
      | .error e => .error e
      | .ok kind =>
          match read payload (i + 4) 4 with
          | .error e => .error e
          | .ok size =>
              let stop := i + 8 + (leNat size + leNat size % 2)
              if payload.length < stop then refuse .invalidImage
              else if kind = ascii "ALPH" ∧ sawAlpha = false ∧ sawImage = false then
                walkFrame payload stop true sawImage
              else if kind = ascii "VP8 " ∧ sawImage = false then
                walkFrame payload stop sawAlpha true
              else if kind = ascii "VP8L" ∧ sawAlpha = false ∧ sawImage = false then
                walkFrame payload stop sawAlpha true
              else if kind ∈ [ascii "ALPH", ascii "VP8 ", ascii "VP8L"] then refuse .invalidImage
              else refuse .metadataForbidden
  else if sawImage then .ok () else refuse .invalidImage
termination_by payload.length - i

def frameHeaderLen : ℕ := 16

def validateFramePayload (payload : List UInt8) : Check Unit :=
  if payload.length < frameHeaderLen then refuse .invalidImage
  else walkFrame payload frameHeaderLen false false

def webpKinds : List (List UInt8) :=
  [ascii "VP8 ", ascii "VP8L", ascii "VP8X", ascii "ALPH", ascii "ANIM", ascii "ANMF"]

/-- The bits that announce a colour profile, EXIF and XMP. -/
def announcesMetadata (flags : UInt8) : Bool := flags &&& (0x20 ||| 0x08 ||| 0x04) != 0

def walkWebp (bytes : List UInt8) (i : ℕ) : Check Unit :=
  if i < bytes.length then
    if bytes.length < i + 8 then refuse .invalidImage
    else
      match read bytes i 4 with
      | .error e => .error e
      | .ok kind =>
          match read bytes (i + 4) 4 with
          | .error e => .error e
          | .ok size =>
              let start := i + 8
              let stop := start + (leNat size + leNat size % 2)
              if bytes.length < stop then refuse .invalidImage
              else if kind ∉ webpKinds then refuse .metadataForbidden
              else if kind = ascii "VP8X" then
                match bytes[start]? with
                | none => refuse .invalidImage
                | some flags =>
                    if announcesMetadata flags then refuse .metadataForbidden
                    else walkWebp bytes stop
              else if kind = ascii "ANMF" then
                match slice bytes start (start + leNat size) with
                | .error e => .error e
                | .ok payload =>
                    match validateFramePayload payload with
                    | .error e => .error e
                    | .ok () => walkWebp bytes stop
              else walkWebp bytes stop
  else .ok ()
termination_by bytes.length - i

def validateWebpMetadataFree (bytes : List UInt8) : Check Unit :=
  if bytes.length < 12 ∨ bytes.take 4 ≠ ascii "RIFF" ∨ (bytes.drop 8).take 4 ≠ ascii "WEBP" then
    refuse .invalidImage
  else
    match read bytes 4 4 with
    | .error e => .error e
    | .ok declared =>
        if leNat declared + 8 ≠ bytes.length then refuse .metadataForbidden
        else walkWebp bytes 12

end WebpCode

section WebpGrammar

structure RiffChunk where
  kind : List UInt8
  size : List UInt8
  payload : List UInt8
  pad : List UInt8
  deriving DecidableEq, Repr

namespace RiffChunk

def encode (chunk : RiffChunk) : List UInt8 :=
  chunk.kind ++ chunk.size ++ chunk.payload ++ chunk.pad

/-- A chunk of odd size has a byte behind it. -/
structure Fits (chunk : RiffChunk) : Prop where
  kindWidth : chunk.kind.length = 4
  sizeWidth : chunk.size.length = 4
  size : leNat chunk.size = chunk.payload.length
  pad : chunk.pad.length = chunk.payload.length % 2

end RiffChunk

/-- A header, and an image with its transparency; a lossless image carries its own. -/
def FramePayload (payload : List UInt8) : Prop :=
  ∃ header : List UInt8, ∃ chunks : List RiffChunk,
    payload = header ++ chunks.flatMap RiffChunk.encode ∧
    header.length = frameHeaderLen ∧ (∀ chunk ∈ chunks, RiffChunk.Fits chunk) ∧
    chunks.map RiffChunk.kind ∈
      [[ascii "VP8 "], [ascii "ALPH", ascii "VP8 "], [ascii "VP8L"]]

def RiffChunk.Listed (chunk : RiffChunk) : Prop :=
  chunk.kind ∈ webpKinds ∧
    (chunk.kind = ascii "VP8X" → ∃ flags rest, chunk.payload = flags :: rest ∧
      announcesMetadata flags = false) ∧
    (chunk.kind = ascii "ANMF" → FramePayload chunk.payload)

def WebpTiled (P : RiffChunk → List UInt8 → Prop) (bytes : List UInt8) (chunks : List RiffChunk) :
    Prop :=
  ∃ size tail, bytes = ascii "RIFF" ++ size ++ ascii "WEBP" ++ tail ∧ size.length = 4 ∧
    leNat size + 8 = bytes.length ∧
    Tiled RiffChunk.encode (fun _ _ => ()) (fun _ chunk rest => chunk.Fits ∧ P chunk rest)
      (fun _ rest => rest = []) () chunks tail

def WebpFile (bytes : List UInt8) : Prop :=
  ∃ chunks, WebpTiled (fun chunk _ => chunk.Listed) bytes chunks

/-- A `VP8X` chunk with no payload. -/
def RiffChunk.Hollow (chunk : RiffChunk) : Prop :=
  chunk.kind = ascii "VP8X" ∧ chunk.payload = []

/-- A file with a `VP8X` chunk that has no flags, and in their place a neighbour whose first byte
has the bits clear: a chunk whose kind begins with an `A`. -/
def ReadsNeighbour (bytes : List UInt8) : Prop :=
  ∃ chunks, WebpTiled (fun chunk rest => chunk.Listed ∨ chunk.Hollow ∧
      ∃ flags tail, rest = flags :: tail ∧ announcesMetadata flags = false) bytes chunks ∧
    ∃ chunk ∈ chunks, RiffChunk.Hollow chunk

end WebpGrammar

section WebpWalk

variable {bytes text rest rest' : List UInt8} {i : ℕ} {chunk other : RiffChunk}
variable {sawAlpha sawImage : Bool} {chunks : List RiffChunk}

theorem RiffChunk.Fits.length (h : chunk.Fits) :
    chunk.encode.length = 8 + (leNat chunk.size + leNat chunk.size % 2) := by
  have := h.kindWidth
  have := h.sizeWidth
  have := h.size
  have := h.pad
  simp only [RiffChunk.encode, List.length_append]
  omega

theorem riff_append (chunk : RiffChunk) (rest : List UInt8) :
    chunk.encode ++ rest = chunk.kind ++ (chunk.size ++
      (chunk.payload ++ (chunk.pad ++ rest))) := by
  simp only [RiffChunk.encode, List.append_assoc]

theorem riff_encode_ne_nil (h : chunk.Fits) : chunk.encode ≠ [] := by
  rw [← List.length_pos_iff, h.length]
  omega

/-- The size says where a chunk ends. -/
theorem riff_inj (hchunk : chunk.Fits) (hother : other.Fits)
    (heq : chunk.encode ++ rest = other.encode ++ rest') : chunk = other := by
  rw [riff_append, riff_append] at heq
  obtain ⟨hkind, heq⟩ := List.append_inj heq (by rw [hchunk.kindWidth, hother.kindWidth])
  obtain ⟨hsize, heq⟩ := List.append_inj heq (by rw [hchunk.sizeWidth, hother.sizeWidth])
  have hlength : chunk.payload.length = other.payload.length := by
    rw [← hchunk.size, ← hother.size, hsize]
  obtain ⟨hpayload, heq⟩ := List.append_inj heq hlength
  obtain ⟨hpad, -⟩ := List.append_inj heq (by rw [hchunk.pad, hother.pad, hlength])
  cases chunk
  cases other
  simp_all

theorem exists_riff {kind size : List UInt8} (hkind : read bytes i 4 = .ok kind)
    (hsize : read bytes (i + 4) 4 = .ok size)
    (hroom : i + 8 + (leNat size + leNat size % 2) ≤ bytes.length) :
    ∃ chunk : RiffChunk, ∃ rest, chunk.Fits ∧ bytes.drop i = chunk.encode ++ rest := by
  obtain ⟨hkindWidth, afterKind, hkindEq⟩ := read_eq_ok hkind
  obtain ⟨hsizeWidth, afterSize, hsizeEq⟩ := read_eq_ok hsize
  obtain ⟨payload, hpayload, hpayloadEq⟩ := exists_take bytes (i := i + 8) (k := leNat size)
    (by omega)
  obtain ⟨pad, hpad, hpadEq⟩ := exists_take bytes (i := i + 8 + leNat size) (k := leNat size % 2)
    (by omega)
  refine ⟨⟨kind, size, payload, pad⟩, bytes.drop (i + 8 + leNat size + leNat size % 2),
    ⟨hkindWidth, hsizeWidth, hpayload.symm, by rw [hpayload, hpad]⟩, ?_⟩
  have hafterKind := drop_add_length hkindEq
  have hafterSize := drop_add_length hsizeEq
  rw [hkindWidth] at hafterKind
  rw [hsizeWidth] at hafterSize
  rw [riff_append, ← hpadEq, ← hpayloadEq, hkindEq, ← hafterKind, hsizeEq, ← hafterSize]

/-- The places of a chunk's parts. -/
theorem riff_places (h : bytes.drop i = chunk.encode ++ rest) (hchunk : chunk.Fits) :
    read bytes i 4 = .ok chunk.kind ∧ read bytes (i + 4) 4 = .ok chunk.size ∧
      bytes.drop (i + 8) = chunk.payload ++ (chunk.pad ++ rest) := by
  have hlength := congrArg List.length h
  rw [List.length_drop, List.length_append, hchunk.length] at hlength
  rw [riff_append] at h
  have hsize := drop_add_length h
  rw [hchunk.kindWidth] at hsize
  have hpayload := drop_add_length hsize
  rw [hchunk.sizeWidth] at hpayload
  exact ⟨read_of_drop h (by omega) hchunk.kindWidth.symm,
    read_of_drop hsize (by omega) hchunk.sizeWidth.symm, hpayload⟩

/-- What the walker does at a chunk. -/
theorem walkWebp_chunk (h : bytes.drop i = chunk.encode ++ rest) (hchunk : chunk.Fits) :
    walkWebp bytes i =
      if chunk.kind ∉ webpKinds then refuse .metadataForbidden
      else if chunk.kind = ascii "VP8X" then
        match (chunk.payload ++ (chunk.pad ++ rest))[0]? with
        | none => refuse .invalidImage
        | some flags =>
            if announcesMetadata flags then refuse .metadataForbidden
            else walkWebp bytes (i + chunk.encode.length)
      else if chunk.kind = ascii "ANMF" then
        match validateFramePayload chunk.payload with
        | .error e => .error e
        | .ok () => walkWebp bytes (i + chunk.encode.length)
      else walkWebp bytes (i + chunk.encode.length) := by
  have hlength := congrArg List.length h
  rw [List.length_drop, List.length_append, hchunk.length] at hlength
  obtain ⟨hkind, hsize, hpayload⟩ := riff_places h hchunk
  have hstop : i + 8 + (leNat chunk.size + leNat chunk.size % 2) = i + chunk.encode.length := by
    rw [hchunk.length]
    omega
  have hflags : bytes[i + 8]? = (chunk.payload ++ (chunk.pad ++ rest))[0]? := by
    rw [← hpayload, List.getElem?_drop, Nat.add_zero]
  rw [walkWebp, if_pos (by omega), if_neg (by omega), hkind]
  simp only
  rw [hsize]
  simp only
  rw [if_neg (by omega), hflags, hstop,
    slice_of_drop hpayload (by omega) (by rw [← hchunk.size])]

theorem exists_riff_of_walkWebp (h : walkWebp bytes i = .ok ()) (hi : i < bytes.length) :
    ∃ chunk : RiffChunk, ∃ rest, chunk.Fits ∧ bytes.drop i = chunk.encode ++ rest := by
  rw [walkWebp, if_pos hi] at h
  split at h
  · cases h
  · split at h
    · cases h
    · next kind hkind =>
        split at h
        · cases h
        · next size hsize =>
            simp only at h
            split at h
            · cases h
            · exact exists_riff hkind hsize (by omega)

/-- Which chunk may come in a frame, the state saying whether an `ALPH` and an image have. -/
def FrameStep : Bool × Bool → RiffChunk → Prop
  | (sawAlpha, sawImage), chunk =>
      (chunk.kind = ascii "ALPH" ∧ sawAlpha = false ∧ sawImage = false) ∨
        (chunk.kind = ascii "VP8 " ∧ sawImage = false) ∨
        (chunk.kind = ascii "VP8L" ∧ sawAlpha = false ∧ sawImage = false)

def frameNext : Bool × Bool → RiffChunk → Bool × Bool
  | (sawAlpha, sawImage), chunk =>
      if chunk.kind = ascii "ALPH" then (true, sawImage) else (sawAlpha, true)

theorem exists_riff_of_walkFrame
    (h : walkFrame bytes i sawAlpha sawImage = .ok ()) (hi : i < bytes.length) :
    ∃ chunk : RiffChunk, ∃ rest, chunk.Fits ∧ bytes.drop i = chunk.encode ++ rest := by
  rw [walkFrame, if_pos hi] at h
  split at h
  · cases h
  · split at h
    · cases h
    · next kind hkind =>
        split at h
        · cases h
        · next size hsize =>
            simp only at h
            split at h
            · cases h
            · exact exists_riff hkind hsize (by omega)

theorem walkFrame_chunk_iff (h : bytes.drop i = chunk.encode ++ rest) (hchunk : chunk.Fits) :
    walkFrame bytes i sawAlpha sawImage = .ok () ↔ FrameStep (sawAlpha, sawImage) chunk ∧
      walkFrame bytes (i + chunk.encode.length) (frameNext (sawAlpha, sawImage) chunk).1
        (frameNext (sawAlpha, sawImage) chunk).2 = .ok () := by
  have hlength := congrArg List.length h
  rw [List.length_drop, List.length_append, hchunk.length] at hlength
  obtain ⟨hkind, hsize, -⟩ := riff_places h hchunk
  have hstop : i + 8 + (leNat chunk.size + leNat chunk.size % 2) = i + chunk.encode.length := by
    rw [hchunk.length]
    omega
  have hlossy : ascii "VP8 " ≠ ascii "ALPH" := by decide
  have hlossless : ascii "VP8L" ≠ ascii "ALPH" ∧ ascii "VP8L" ≠ ascii "VP8 " := by decide
  rw [walkFrame, if_pos (by omega), if_neg (by omega), hkind]
  simp only
  rw [hsize]
  simp only
  rw [if_neg (by omega), hstop]
  unfold FrameStep frameNext
  split_ifs with halph hvp8 hvp8l hknown
  · simp [halph]
  · simp [hvp8, hlossy]
  · simp [hvp8l, hlossless]
  · exact iff_of_false (fun h => by cases h) fun h => h.1.elim halph (Or.rec hvp8 hvp8l)
  · exact iff_of_false (fun h => by cases h) fun h => h.1.elim halph (Or.rec hvp8 hvp8l)

theorem walkFrame_step (bytes : List UInt8) (i : ℕ) (s : Bool × Bool) :
    walkFrame bytes i s.1 s.2 = .ok () ↔ (bytes.drop i = [] ∧ s.2 = true) ∨
      ∃ chunk rest, bytes.drop i = RiffChunk.encode chunk ++ rest ∧
        (chunk.Fits ∧ FrameStep s chunk) ∧
        walkFrame bytes (i + chunk.encode.length) (frameNext s chunk).1 (frameNext s chunk).2 =
          .ok () := by
  by_cases hi : i < bytes.length
  · have hne : bytes.drop i ≠ [] := by
      rw [List.drop_eq_getElem_cons hi]
      exact List.cons_ne_nil _ _
    constructor
    · intro h
      obtain ⟨chunk, rest, hchunk, heq⟩ := exists_riff_of_walkFrame h hi
      obtain ⟨hstep, hrest⟩ := (walkFrame_chunk_iff heq hchunk).mp h
      exact .inr ⟨chunk, rest, heq, ⟨hchunk, hstep⟩, hrest⟩
    · rintro (⟨h, -⟩ | ⟨chunk, rest, heq, ⟨hchunk, hstep⟩, hrest⟩)
      · exact absurd h hne
      · exact (walkFrame_chunk_iff heq hchunk).mpr ⟨hstep, hrest⟩
  · have hnil : bytes.drop i = [] := List.drop_eq_nil_of_le (Nat.not_lt.mp hi)
    rw [walkFrame, if_neg hi, hnil]
    constructor
    · intro h
      split at h
      · next himage => exact .inl ⟨rfl, himage⟩
      · cases h
    · rintro (⟨-, himage⟩ | ⟨chunk, rest, heq, ⟨hchunk, -⟩, -⟩)
      · rw [if_pos himage]
      · exact absurd (List.append_eq_nil_iff.mp heq.symm).1 (riff_encode_ne_nil hchunk)

/-- Chunks that may come one after another in a frame, from the state on. -/
def FrameTiled (s : Bool × Bool) (chunks : List RiffChunk) (text : List UInt8) : Prop :=
  Tiled RiffChunk.encode frameNext (fun s chunk _ => chunk.Fits ∧ FrameStep s chunk)
    (fun s rest => rest = [] ∧ s.2 = true) s chunks text

/-- Behind an image there is nothing. -/
theorem frameTiled_image {sawAlpha : Bool}
    (h : FrameTiled (sawAlpha, true) chunks text) : chunks = [] ∧ text = [] := by
  cases h with
  | stop hstop => exact ⟨rfl, hstop.1⟩
  | record hrecord _ =>
      rcases hrecord.2 with ⟨-, -, himage⟩ | ⟨-, himage⟩ | ⟨-, -, himage⟩ <;> cases himage

theorem frameNext_image (h : chunk.kind ≠ ascii "ALPH") :
    frameNext (sawAlpha, sawImage) chunk = (sawAlpha, true) :=
  if_neg h

theorem frameNext_alpha (h : chunk.kind = ascii "ALPH") :
    frameNext (sawAlpha, sawImage) chunk = (true, sawImage) :=
  if_pos h

/-- An image ends its frame. -/
theorem frameTiled_cons_image (himage : chunk.kind ≠ ascii "ALPH") :
    FrameTiled (sawAlpha, sawImage) (chunk :: chunks) text ↔
      (chunk.Fits ∧ FrameStep (sawAlpha, sawImage) chunk) ∧ chunks = [] ∧ text = chunk.encode := by
  constructor
  · intro h
    cases h with
    | record hrecord hrest =>
        rw [frameNext_image himage] at hrest
        obtain ⟨rfl, rfl⟩ := frameTiled_image hrest
        exact ⟨hrecord, rfl, List.append_nil _⟩
  · rintro ⟨hrecord, rfl, rfl⟩
    rw [← List.append_nil chunk.encode]
    refine .record hrecord (.stop ⟨rfl, ?_⟩)
    rw [frameNext_image himage]

theorem ne_alpha_of_image (h : chunk.kind = ascii "VP8 " ∨ chunk.kind = ascii "VP8L") :
    chunk.kind ≠ ascii "ALPH" := by
  rcases h with h | h <;> rw [h] <;> decide

/-- A frame is an image, which may have its transparency before it. -/
theorem frameTiled_iff : FrameTiled (false, false) chunks text ↔
      text = chunks.flatMap RiffChunk.encode ∧ (∀ chunk ∈ chunks, RiffChunk.Fits chunk) ∧
        chunks.map RiffChunk.kind ∈
          [[ascii "VP8 "], [ascii "ALPH", ascii "VP8 "], [ascii "VP8L"]] := by
  constructor
  · intro h
    obtain ⟨rest, htext, rfl, -⟩ := h.text_eq
    refine ⟨htext.trans (List.append_nil _), h.forall_mem fun s chunk rest h => h.1, ?_⟩
    cases h with
    | stop hstop => cases hstop.2
    | @record _ chunk chunks rest hrecord hrest =>
        obtain ⟨halpha, -⟩ | ⟨hkind, -⟩ | ⟨hkind, -⟩ := hrecord.2
        · rw [frameNext_alpha halpha] at hrest
          cases hrest with
          | stop hstop => cases hstop.2
          | @record _ image chunks rest hrecord hrest =>
              obtain ⟨-, hnot, -⟩ | ⟨hkind, -⟩ | ⟨-, hnot, -⟩ := hrecord.2
              · cases hnot
              · rw [frameNext_image (ne_alpha_of_image (.inl hkind))] at hrest
                obtain ⟨rfl, -⟩ := frameTiled_image hrest
                rw [List.map_cons, List.map_singleton, halpha, hkind]
                decide
              · cases hnot
        · rw [frameNext_image (ne_alpha_of_image (.inl hkind))] at hrest
          obtain ⟨rfl, -⟩ := frameTiled_image hrest
          rw [List.map_singleton, hkind]
          decide
        · rw [frameNext_image (ne_alpha_of_image (.inr hkind))] at hrest
          obtain ⟨rfl, -⟩ := frameTiled_image hrest
          rw [List.map_singleton, hkind]
          decide
  · rintro ⟨rfl, hfits, hkinds⟩
    simp only [List.mem_cons, List.not_mem_nil, or_false, List.map_eq_cons_iff, List.map_eq_nil_iff]
      at hkinds
    obtain ⟨image, _, rfl, hkind, rfl⟩ | ⟨alpha, _, rfl, halpha, image, _, rfl, hkind, rfl⟩ |
      ⟨image, _, rfl, hkind, rfl⟩ := hkinds
    · rw [frameTiled_cons_image (ne_alpha_of_image (.inl hkind)), List.flatMap_singleton]
      exact ⟨⟨hfits _ (List.mem_singleton_self _), .inr (.inl ⟨hkind, rfl⟩)⟩, rfl, rfl⟩
    · rw [List.forall_mem_cons] at hfits
      rw [List.flatMap_cons]
      refine .record ⟨hfits.1, .inl ⟨halpha, rfl, rfl⟩⟩ ?_
      rw [frameNext_alpha halpha]
      refine (frameTiled_cons_image (ne_alpha_of_image (.inl hkind))).mpr ⟨⟨?_, ?_⟩, rfl, ?_⟩
      · exact hfits.2 _ (List.mem_singleton_self _)
      · exact .inr (.inl ⟨hkind, rfl⟩)
      · exact List.flatMap_singleton ..
    · rw [frameTiled_cons_image (ne_alpha_of_image (.inr hkind)), List.flatMap_singleton]
      exact ⟨⟨hfits _ (List.mem_singleton_self _), .inr (.inr ⟨hkind, rfl, rfl⟩)⟩, rfl, rfl⟩

theorem validateFramePayload_iff (payload : List UInt8) :
    validateFramePayload payload = .ok () ↔ FramePayload payload := by
  have hwalk : ∀ header text : List UInt8, header.length = frameHeaderLen →
      (walkFrame (header ++ text) frameHeaderLen false false = .ok () ↔
        ∃ chunks, FrameTiled (false, false) chunks text) := by
    intro header text hheader
    have hiff := @ByteTiling.accepts_iff_tiled _ _ _ RiffChunk.encode frameNext
      (fun s chunk _ => RiffChunk.Fits chunk ∧ FrameStep s chunk)
      (fun s rest => rest = [] ∧ s.2 = true) (header ++ text)
      (fun i (s : Bool × Bool) => walkFrame (header ++ text) i s.1 s.2 = .ok ())
      (fun h => riff_encode_ne_nil h.1) (fun i _ s => walkFrame_step _ i s) header.length
      (by rw [List.length_append]; omega) (false, false)
    rw [List.drop_left, hheader] at hiff
    exact hiff
  unfold validateFramePayload FramePayload
  split_ifs with hshort
  · refine iff_of_false (fun h => by cases h) ?_
    rintro ⟨header, chunks, rfl, hheader, -⟩
    rw [List.length_append] at hshort
    omega
  · constructor
    · intro h
      obtain ⟨header, hheader, hheaderEq⟩ := exists_take payload (i := 0) (k := frameHeaderLen)
        (by omega)
      rw [List.drop_zero] at hheaderEq
      rw [hheaderEq, hwalk _ _ hheader] at h
      obtain ⟨chunks, hchunks⟩ := h
      obtain ⟨htext, hfits, hkinds⟩ := frameTiled_iff.mp hchunks
      exact ⟨header, chunks, htext ▸ hheaderEq, hheader, hfits, hkinds⟩
    · rintro ⟨header, chunks, rfl, hheader, hfits, hkinds⟩
      exact (hwalk _ _ hheader).mpr ⟨chunks, frameTiled_iff.mpr ⟨rfl, hfits, hkinds⟩⟩

/-- What the walker looks at in a chunk, with what comes behind it. -/
def RiffChunk.Passes (chunk : RiffChunk) (rest : List UInt8) : Prop :=
  chunk.kind ∈ webpKinds ∧
    (chunk.kind = ascii "VP8X" → ∃ flags tail,
      chunk.payload ++ (chunk.pad ++ rest) = flags :: tail ∧ announcesMetadata flags = false) ∧
    (chunk.kind = ascii "ANMF" → validateFramePayload chunk.payload = .ok ())

theorem walkWebp_chunk_iff (h : bytes.drop i = chunk.encode ++ rest) (hchunk : chunk.Fits) :
    walkWebp bytes i = .ok () ↔
      chunk.Passes rest ∧ walkWebp bytes (i + chunk.encode.length) = .ok () := by
  rw [walkWebp_chunk h hchunk]
  unfold RiffChunk.Passes
  by_cases hkind : chunk.kind ∈ webpKinds
  · rw [if_neg (not_not.mpr hkind)]
    by_cases hvp8x : chunk.kind = ascii "VP8X"
    · have hanmf : chunk.kind ≠ ascii "ANMF" := by
        rw [hvp8x]
        decide
      rw [if_pos hvp8x]
      cases hflags : chunk.payload ++ (chunk.pad ++ rest) with
      | nil => simp [hvp8x, refuse]
      | cons flags tail =>
          cases hannounces : announcesMetadata flags with
          | true => simp [hvp8x, refuse, hannounces]
          | false => simp [hvp8x, hvp8x ▸ hkind, hvp8x ▸ hanmf, hannounces]
    · rw [if_neg hvp8x]
      by_cases hanmf : chunk.kind = ascii "ANMF"
      · rw [if_pos hanmf]
        cases hframe : validateFramePayload chunk.payload with
        | error e => simp [hanmf]
        | ok u => simp [hanmf, hanmf ▸ hkind, hanmf ▸ hvp8x]
      · simp [hkind, hvp8x, hanmf]
  · rw [if_pos hkind]
    simp [hkind, refuse]

theorem walkWebp_step (bytes : List UInt8) (i : ℕ) :
    walkWebp bytes i = .ok () ↔ bytes.drop i = [] ∨
      ∃ chunk rest, bytes.drop i = RiffChunk.encode chunk ++ rest ∧
        (chunk.Fits ∧ chunk.Passes rest) ∧
        walkWebp bytes (i + chunk.encode.length) = .ok () := by
  by_cases hi : i < bytes.length
  · have hne : bytes.drop i ≠ [] := by
      rw [List.drop_eq_getElem_cons hi]
      exact List.cons_ne_nil _ _
    constructor
    · intro h
      obtain ⟨chunk, rest, hchunk, heq⟩ := exists_riff_of_walkWebp h hi
      obtain ⟨hpasses, hrest⟩ := (walkWebp_chunk_iff heq hchunk).mp h
      exact .inr ⟨chunk, rest, heq, ⟨hchunk, hpasses⟩, hrest⟩
    · rintro (h | ⟨chunk, rest, heq, ⟨hchunk, hpasses⟩, hrest⟩)
      · exact absurd h hne
      · exact (walkWebp_chunk_iff heq hchunk).mpr ⟨hpasses, hrest⟩
  · rw [walkWebp, if_neg hi]
    exact iff_of_true rfl (.inl (List.drop_eq_nil_of_le (Nat.not_lt.mp hi)))

/-- What the walker lets through is a listed chunk, or reads flags where it has none. -/
theorem riff_passes_iff (h : chunk.Fits) :
    chunk.Passes rest ↔ chunk.Listed ∨ chunk.Hollow ∧
      ∃ flags tail, rest = flags :: tail ∧ announcesMetadata flags = false := by
  unfold RiffChunk.Passes RiffChunk.Listed RiffChunk.Hollow
  rw [validateFramePayload_iff]
  by_cases hvp8x : chunk.kind = ascii "VP8X"
  · have hknown : ascii "VP8X" ∈ webpKinds := by decide
    have hanmf : ascii "VP8X" ≠ ascii "ANMF" := by decide
    cases hpayload : chunk.payload with
    | nil =>
        have hpad : chunk.pad = [] := by
          rw [← List.length_eq_zero_iff, h.pad, hpayload, List.length_nil]
        simp [hvp8x, hknown, hanmf, hpad]
    | cons flags payload => simp [hvp8x, hknown, hanmf]
  · simp [hvp8x]

/-- The places of the header's parts. -/
theorem validateWebp_append {size tail : List UInt8} (hsize : size.length = 4) :
    validateWebpMetadataFree (ascii "RIFF" ++ size ++ ascii "WEBP" ++ tail) = .ok () ↔
      leNat size + 8 = (ascii "RIFF" ++ size ++ ascii "WEBP" ++ tail).length ∧
        walkWebp (ascii "RIFF" ++ size ++ ascii "WEBP" ++ tail) 12 = .ok () := by
  have hriff : (ascii "RIFF").length = 4 := rfl
  have hwebp : (ascii "WEBP").length = 4 := rfl
  have htext : ascii "RIFF" ++ size ++ ascii "WEBP" ++ tail =
      ascii "RIFF" ++ (size ++ (ascii "WEBP" ++ tail)) := by
    simp only [List.append_assoc]
  have hlength : (ascii "RIFF" ++ size ++ ascii "WEBP" ++ tail).length = 12 + tail.length := by
    simp only [List.length_append, hriff, hwebp, hsize]
  generalize ascii "RIFF" ++ size ++ ascii "WEBP" ++ tail = bytes at *
  have hsizePlace : bytes.drop 4 = size ++ (ascii "WEBP" ++ tail) := by
    rw [htext, ← hriff, List.drop_left]
  have hwebpPlace := drop_add_length hsizePlace
  rw [hsize] at hwebpPlace
  rw [validateWebpMetadataFree, if_neg, read_of_drop hsizePlace (by omega) hsize.symm]
  · simp only
    split_ifs with hdeclared
    · exact iff_of_false (fun h => by cases h) fun h => hdeclared h.1
    · exact ⟨fun h => ⟨not_not.mp hdeclared, h⟩, fun h => h.2⟩
  · rintro (hshort | hnot | hnot)
    · omega
    · refine hnot ?_
      rw [htext, ← hriff, List.take_left]
    · refine hnot ?_
      rw [show bytes.drop 8 = ascii "WEBP" ++ tail from hwebpPlace, ← hwebp, List.take_left]

theorem exists_webpHead (h : validateWebpMetadataFree bytes = .ok ()) :
    ∃ size tail, size.length = 4 ∧ bytes = ascii "RIFF" ++ size ++ ascii "WEBP" ++ tail := by
  unfold validateWebpMetadataFree at h
  split at h
  · cases h
  · next hhead =>
      rw [not_or, not_or, not_not, not_not, Nat.not_lt] at hhead
      obtain ⟨hlength, hriff, hwebp⟩ := hhead
      obtain ⟨size, hsize, hsizeEq⟩ := exists_take bytes (i := 4) (k := 4) (by omega)
      refine ⟨size, bytes.drop 12, hsize, ?_⟩
      rw [← hriff, ← hwebp, List.append_assoc, List.append_assoc,
        ← drop_split bytes 8 4, ← hsizeEq, List.take_append_drop]

theorem webpTiled_append {P : RiffChunk → List UInt8 → Prop} {size tail : List UInt8}
    (hsize : size.length = 4) :
    WebpTiled P (ascii "RIFF" ++ size ++ ascii "WEBP" ++ tail) chunks ↔
      leNat size + 8 = (ascii "RIFF" ++ size ++ ascii "WEBP" ++ tail).length ∧
      Tiled RiffChunk.encode (fun _ _ => ()) (fun _ chunk rest => chunk.Fits ∧ P chunk rest)
        (fun _ rest => rest = []) () chunks tail := by
  constructor
  · rintro ⟨size', tail', heq, hsize', hdeclared, h⟩
    have hparts := heq
    rw [List.append_assoc, List.append_assoc, List.append_assoc, List.append_assoc] at hparts
    obtain ⟨rfl, htail⟩ := List.append_inj (List.append_cancel_left hparts) (by rw [hsize, hsize'])
    obtain rfl := List.append_cancel_left htail
    exact ⟨hdeclared, h⟩
  · rintro ⟨hdeclared, h⟩
    exact ⟨size, tail, rfl, hsize, hdeclared, h⟩

theorem webpTiled_mono {P Q : RiffChunk → List UInt8 → Prop}
    (h : WebpTiled P bytes chunks) (hmono : ∀ chunk rest, chunk.Fits → P chunk rest →
      Q chunk rest) :
    WebpTiled Q bytes chunks := by
  obtain ⟨size, tail, heq, hsize, hdeclared, htiled⟩ := h
  exact ⟨size, tail, heq, hsize, hdeclared,
    htiled.mono fun s chunk _ rest h => ⟨h.1, hmono chunk rest h.1 h.2⟩⟩

/-- A WebP file is accepted exactly when it is made of chunks that pass. -/
theorem validateWebp_iff_tiled (bytes : List UInt8) :
    validateWebpMetadataFree bytes = .ok () ↔ ∃ chunks,
      WebpTiled RiffChunk.Passes bytes chunks := by
  by_cases hhead : ∃ size tail, size.length = 4 ∧
      bytes = ascii "RIFF" ++ size ++ ascii "WEBP" ++ tail
  · obtain ⟨size, tail, hsize, rfl⟩ := hhead
    have hwalk := @ByteTiling.accepts_iff_tiled _ _ _ RiffChunk.encode (fun _ _ => ())
      (fun _ chunk rest => RiffChunk.Fits chunk ∧ chunk.Passes rest) (fun _ rest => rest = [])
      (ascii "RIFF" ++ size ++ ascii "WEBP" ++ tail)
      (fun i (_ : Unit) => walkWebp (ascii "RIFF" ++ size ++ ascii "WEBP" ++ tail) i = .ok ())
      (fun h => riff_encode_ne_nil h.1) (fun i _ _ => walkWebp_step _ i)
      (ascii "RIFF" ++ size ++ ascii "WEBP").length (List.prefix_append _ tail).length_le ()
    have hplace : (ascii "RIFF" ++ size ++ ascii "WEBP").length = 12 := by
      rw [List.length_append, List.length_append, hsize]
      rfl
    rw [List.drop_left, hplace] at hwalk
    simp only [validateWebp_append hsize, webpTiled_append hsize, exists_and_left]
    rw [hwalk]
  · refine iff_of_false (fun h => hhead (exists_webpHead h)) ?_
    rintro ⟨chunks, size, tail, heq, hsize, -⟩
    exact hhead ⟨size, tail, hsize, heq⟩

theorem riffChunks_unambiguous (P : RiffChunk → List UInt8 → Prop) :
    ByteTiling.Unambiguous RiffChunk.encode (fun _ chunk rest => chunk.Fits ∧ P chunk rest)
      (fun (_ : Unit) rest => rest = []) where
  record hchunk hother heq := riff_inj hchunk.1 hother.1 heq
  stop := by
    rintro _ chunk rest text ⟨hchunk, -⟩ rfl heq
    exact riff_encode_ne_nil hchunk (List.append_eq_nil_iff.mp heq.symm).1

theorem not_hollow_of_listed (h : chunk.Listed) : ¬chunk.Hollow := by
  rintro ⟨hkind, hnil⟩
  obtain ⟨flags, rest, hpayload, -⟩ := h.2.1 hkind
  rw [hnil] at hpayload
  cases hpayload

/-- A WebP file is accepted exactly when it is made as the format says, unless a `VP8X` chunk has no
flags of its own and its neighbour is read for them. -/
theorem webpFile_iff (bytes : List UInt8) :
    (validateWebpMetadataFree bytes = .ok () ↔ WebpFile bytes) ↔ ¬ReadsNeighbour bytes := by
  have haccepted : validateWebpMetadataFree bytes = .ok () ↔
      ∃ chunks, WebpTiled (fun chunk rest => chunk.Listed ∨ chunk.Hollow ∧
        ∃ flags tail, rest = flags :: tail ∧ announcesMetadata flags = false) bytes chunks := by
    rw [validateWebp_iff_tiled]
    constructor
    · exact fun ⟨chunks, h⟩ => ⟨chunks, webpTiled_mono h fun _ _ hfits =>
        (riff_passes_iff hfits).mp⟩
    · exact fun ⟨chunks, h⟩ => ⟨chunks, webpTiled_mono h fun _ _ hfits =>
        (riff_passes_iff hfits).mpr⟩
  have hmono : WebpFile bytes → validateWebpMetadataFree bytes = .ok () := fun ⟨chunks, h⟩ =>
    haccepted.mpr ⟨chunks, webpTiled_mono h fun _ _ _ => .inl⟩
  have honlyIf : (validateWebpMetadataFree bytes = .ok () ↔ WebpFile bytes) ↔
      (validateWebpMetadataFree bytes = .ok () → WebpFile bytes) :=
    ⟨Iff.mp, fun h => ⟨h, hmono⟩⟩
  by_cases hhead : ∃ size tail, size.length = 4 ∧
      bytes = ascii "RIFF" ++ size ++ ascii "WEBP" ++ tail
  · obtain ⟨size, tail, hsize, rfl⟩ := hhead
    have honly := @Tiled.only_iff _ _ _ _ (fun _ _ => ()) _ _ () tail
      (fun _ chunk => chunk.Listed) RiffChunk.Hollow
      (riffChunks_unambiguous fun chunk rest => chunk.Listed ∨ chunk.Hollow ∧
        ∃ flags tail, rest = flags :: tail ∧ announcesMetadata flags = false)
      (fun h => ⟨not_hollow_of_listed, fun hnot => h.2.resolve_right fun h => hnot h.1⟩)
    by_cases hdeclared : leNat size + 8 = (ascii "RIFF" ++ size ++ ascii "WEBP" ++ tail).length
    · have hlisted : WebpFile (ascii "RIFF" ++ size ++ ascii "WEBP" ++ tail) ↔
          ∃ chunks, Tiled RiffChunk.encode (fun _ _ => ()) (fun _ chunk rest =>
            (chunk.Fits ∧ (chunk.Listed ∨ chunk.Hollow ∧
              ∃ flags tail, rest = flags :: tail ∧ announcesMetadata flags = false)) ∧
              chunk.Listed) (fun (_ : Unit) rest => rest = []) () chunks tail := by
        unfold WebpFile
        simp only [webpTiled_append hsize, hdeclared, true_and]
        constructor
        · exact fun ⟨chunks, h⟩ => ⟨chunks, h.mono fun _ _ _ _ h => ⟨⟨h.1, .inl h.2⟩, h.2⟩⟩
        · exact fun ⟨chunks, h⟩ => ⟨chunks, h.mono fun _ _ _ _ h => ⟨h.1.1, h.2⟩⟩
      rw [honlyIf, haccepted, hlisted]
      unfold ReadsNeighbour
      simp only [webpTiled_append hsize, hdeclared, true_and]
      exact honly
    · simp only [haccepted, WebpFile, ReadsNeighbour, webpTiled_append hsize, hdeclared, false_and,
        exists_false, not_false_eq_true]
  · have hnone : ∀ P chunks, ¬WebpTiled P bytes chunks :=
      fun P chunks ⟨size, tail, heq, hsize, _⟩ =>
      hhead ⟨size, tail, hsize, heq⟩
    simp only [haccepted, WebpFile, ReadsNeighbour, hnone, exists_false, false_and,
      not_false_eq_true]

theorem read_inRange (bytes : List UInt8) (i n : ℕ) : read bytes i n ≠ .error .outOfRange := by
  unfold read
  split
  · exact fun h => by cases h
  · exact refuse_inRange _

theorem walkFrame_inRange (payload : List UInt8) (i : ℕ) (sawAlpha sawImage : Bool) :
    walkFrame payload i sawAlpha sawImage ≠ .error .outOfRange := by
  induction hn : payload.length - i using Nat.strong_induction_on generalizing i sawAlpha
    sawImage with
  | _ n ih =>
      rw [walkFrame]
      split
      · next hi =>
          split
          · exact refuse_inRange _
          · split
            · next hkind => exact fun h => read_inRange payload i 4 (by cases h; exact hkind)
            · split
              · next hsize =>
                  exact fun h => read_inRange payload (i + 4) 4 (by cases h; exact hsize)
              · next size hsize =>
                  have hrest := fun sawAlpha sawImage => ih
                    (payload.length - (i + 8 + (leNat size + leNat size % 2))) (by omega) _ sawAlpha
                    sawImage rfl
                  simp only
                  split_ifs
                  · exact refuse_inRange _
                  · exact hrest _ _
                  · exact hrest _ _
                  · exact hrest _ _
                  · exact refuse_inRange _
                  · exact refuse_inRange _
      · split
        · exact fun h => by cases h
        · exact refuse_inRange _

theorem validateFramePayload_inRange (payload : List UInt8) :
    validateFramePayload payload ≠ .error .outOfRange := by
  unfold validateFramePayload
  split
  · exact refuse_inRange _
  · exact walkFrame_inRange _ _ _ _

theorem walkWebp_inRange (bytes : List UInt8) (i : ℕ) : walkWebp bytes i ≠ .error .outOfRange := by
  induction hn : bytes.length - i using Nat.strong_induction_on generalizing i with
  | _ n ih =>
      rw [walkWebp]
      split
      · next hi =>
          split
          · exact refuse_inRange _
          · split
            · next hkind => exact fun h => read_inRange bytes i 4 (by cases h; exact hkind)
            · split
              · next hsize => exact fun h => read_inRange bytes (i + 4) 4 (by cases h; exact hsize)
              · next size hsize =>
                  have hrest := ih (bytes.length - (i + 8 + (leNat size + leNat size % 2)))
                    (by omega) _ rfl
                  simp only
                  split
                  · exact refuse_inRange _
                  · next hroom =>
                      rw [slice_inRange (by omega) (by omega)]
                      split
                      · exact refuse_inRange _
                      · split
                        · split
                          · exact refuse_inRange _
                          · split
                            · exact refuse_inRange _
                            · exact hrest
                        · split
                          · simp only
                            split
                            · next hframe =>
                                exact fun h =>
                                  validateFramePayload_inRange _ (by cases h; exact hframe)
                            · exact hrest
                          · exact hrest
      · exact fun h => by cases h

theorem validateWebp_inRange (bytes : List UInt8) :
    validateWebpMetadataFree bytes ≠ .error .outOfRange := by
  unfold validateWebpMetadataFree
  split
  · exact refuse_inRange _
  · split
    · next hdeclared => exact fun h => read_inRange bytes 4 4 (by cases h; exact hdeclared)
    · split
      · exact refuse_inRange _
      · exact walkWebp_inRange _ _

/-- The walkers read no byte out of range and let through what the formats say; only a `VP8X` chunk
with no payload gets past the second. -/
theorem animated_exact_iff (bytes : List UInt8) :
    ((validateGifMetadataFree bytes ≠ .error .outOfRange ∧
          (validateGifMetadataFree bytes = .ok () ↔ GifFile bytes)) ∧
        validateWebpMetadataFree bytes ≠ .error .outOfRange ∧
          (validateWebpMetadataFree bytes = .ok () ↔ WebpFile bytes)) ↔
      ¬ReadsNeighbour bytes := by
  rw [webpFile_iff, and_iff_right (validateWebp_inRange bytes),
    and_iff_right (And.intro (validateGif_inRange bytes) (validateGif_iff bytes))]

/-- A `VP8X` chunk of size zero, and an `ALPH` chunk behind it. -/
def hollowWebp : List UInt8 :=
  ascii "RIFF" ++ [20, 0, 0, 0] ++ ascii "WEBP" ++
    (ascii "VP8X" ++ [0, 0, 0, 0] ++ (ascii "ALPH" ++ [0, 0, 0, 0]))

theorem hollowWebp_readsNeighbour : ReadsNeighbour hollowWebp := by
  have hhollow : RiffChunk.Hollow ⟨ascii "VP8X", [0, 0, 0, 0], [], []⟩ := ⟨rfl, rfl⟩
  have halpha : RiffChunk.Listed ⟨ascii "ALPH", [0, 0, 0, 0], [], []⟩ :=
    ⟨by decide, fun h => absurd h (by decide), fun h => absurd h (by decide)⟩
  have htail : ascii "VP8X" ++ [0, 0, 0, 0] ++ (ascii "ALPH" ++ [0, 0, 0, 0]) =
      RiffChunk.encode ⟨ascii "VP8X", [0, 0, 0, 0], [], []⟩ ++
        (RiffChunk.encode ⟨ascii "ALPH", [0, 0, 0, 0], [], []⟩ ++ []) := by
    decide
  refine ⟨[⟨ascii "VP8X", [0, 0, 0, 0], [], []⟩, ⟨ascii "ALPH", [0, 0, 0, 0], [], []⟩],
    ⟨[20, 0, 0, 0], _, rfl, rfl, by decide, ?_⟩, _, List.mem_cons_self .., hhollow⟩
  rw [htail]
  refine .record ⟨⟨rfl, rfl, rfl, rfl⟩, .inr ⟨hhollow, 0x41, _, rfl, by decide⟩⟩ ?_
  exact .record ⟨⟨rfl, rfl, rfl, rfl⟩, .inl halpha⟩ (.stop rfl)

theorem hollow_vp8x_accepted :
    ¬∀ bytes, (validateGifMetadataFree bytes ≠ .error .outOfRange ∧
        (validateGifMetadataFree bytes = .ok () ↔ GifFile bytes)) ∧
      validateWebpMetadataFree bytes ≠ .error .outOfRange ∧
        (validateWebpMetadataFree bytes = .ok () ↔ WebpFile bytes) := by
  intro h
  exact (webpFile_iff hollowWebp).mp (h hollowWebp).2.2 hollowWebp_readsNeighbour

end WebpWalk

end Buzz.Media
