import Buzz.WebText

/-!
# Percent-encoded text

Text as UTF-8 bytes, each byte either a kept ASCII character or `%` with two
hexadecimal digits. A decoder reads the bytes back and puts U+FFFD for what is
not UTF-8. Encoding and decoding again gives the text, whatever it contains.
-/

namespace PercentText

section Utf8

def utf8Bytes (c : Char) : List ℕ :=
  let n := c.toNat
  if n < 0x80 then [n]
  else if n < 0x800 then [0xc0 + n / 64, 0x80 + n % 64]
  else if n < 0x10000 then [0xe0 + n / 4096, 0x80 + n / 64 % 64, 0x80 + n % 64]
  else [0xf0 + n / 262144, 0x80 + n / 4096 % 64, 0x80 + n / 64 % 64, 0x80 + n % 64]

/-- No character lies between the surrogates, and none beyond the last plane. -/
theorem toNat_valid (c : Char) : c.toNat < 0xd800 ∨ 0xdfff < c.toNat ∧ c.toNat < 0x110000 := by
  have h : UInt32.isValidChar c.val := c.valid
  simpa [UInt32.isValidChar, Nat.isValidChar] using h

theorem utf8Bytes_lt (c : Char) : ∀ byte ∈ utf8Bytes c, byte < 256 := by
  have hvalid := toNat_valid c
  unfold utf8Bytes
  intro byte hbyte
  simp only at hbyte
  split_ifs at hbyte
  all_goals
    simp only [List.mem_cons, List.not_mem_nil, or_false] at hbyte
    omega

variable {byte point lower upper : ℕ} {rest : List ℕ}

theorem decodeFrom_lead {chars : List Char} {state : WebText.Utf8State}
    (h : WebText.leadByte byte = (chars, state)) :
    WebText.decodeFrom .start (byte :: rest) = chars ++ WebText.decodeFrom state rest := by
  simp [WebText.decodeFrom, WebText.Utf8State.start, h]

theorem decodeFrom_last (hlower : lower ≤ byte) (hupper : byte ≤ upper) :
    WebText.decodeFrom ⟨1, point, lower, upper⟩ (byte :: rest) =
      Char.ofNat (point * 64 + (byte - 0x80)) :: WebText.decodeFrom .start rest := by
  simp [WebText.decodeFrom, hlower, hupper]

theorem decodeFrom_tail {needed : ℕ} (hlower : lower ≤ byte) (hupper : byte ≤ upper) :
    WebText.decodeFrom ⟨needed + 2, point, lower, upper⟩ (byte :: rest) =
      WebText.decodeFrom ⟨needed + 1, point * 64 + (byte - 0x80), 0x80, 0xbf⟩ rest := by
  simp [WebText.decodeFrom, hlower, hupper]

theorem decodeFrom_utf8Bytes (c : Char) (rest : List ℕ) :
    WebText.decodeFrom .start (utf8Bytes c ++ rest) = c :: WebText.decodeFrom .start rest := by
  have hvalid := toNat_valid c
  have hchar (n : ℕ) (h : n = c.toNat) : Char.ofNat n = c := by
    rw [h]
    exact Char.ofNat_toNat c
  unfold utf8Bytes
  simp only
  split_ifs with hone htwo hthree
  · have hlead : WebText.leadByte c.toNat = ([c], .start) := by
      rw [WebText.leadByte, if_pos (by omega), hchar _ rfl]
    rw [List.singleton_append, decodeFrom_lead hlead, List.singleton_append]
  · have hlead : WebText.leadByte (0xc0 + c.toNat / 64) = ([], ⟨1, c.toNat / 64, 0x80, 0xbf⟩) := by
      rw [WebText.leadByte, if_neg (by omega), if_pos (by omega), Nat.add_sub_cancel_left]
    rw [List.cons_append, List.singleton_append, decodeFrom_lead hlead, List.nil_append,
      decodeFrom_last (by omega) (by omega), hchar _ (by omega)]
  · have hlead : WebText.leadByte (0xe0 + c.toNat / 4096) =
        ([], ⟨2, c.toNat / 4096, if 0xe0 + c.toNat / 4096 = 0xe0 then 0xa0 else 0x80,
          if 0xe0 + c.toNat / 4096 = 0xed then 0x9f else 0xbf⟩) := by
      rw [WebText.leadByte, if_neg (by omega), if_neg (by omega), if_pos (by omega),
        Nat.add_sub_cancel_left]
    have hlower : (if 0xe0 + c.toNat / 4096 = 0xe0 then 0xa0 else 0x80) ≤
        0x80 + c.toNat / 64 % 64 := by
      split_ifs <;> omega
    have hupper : 0x80 + c.toNat / 64 % 64 ≤
        if 0xe0 + c.toNat / 4096 = 0xed then 0x9f else 0xbf := by
      split_ifs <;> omega
    rw [List.cons_append, List.cons_append, List.singleton_append, decodeFrom_lead hlead,
      List.nil_append, decodeFrom_tail hlower hupper, decodeFrom_last (by omega) (by omega),
      hchar _ (by omega)]
  · have hlead : WebText.leadByte (0xf0 + c.toNat / 262144) =
        ([], ⟨3, c.toNat / 262144, if 0xf0 + c.toNat / 262144 = 0xf0 then 0x90 else 0x80,
          if 0xf0 + c.toNat / 262144 = 0xf4 then 0x8f else 0xbf⟩) := by
      rw [WebText.leadByte, if_neg (by omega), if_neg (by omega), if_neg (by omega),
        if_pos (by omega), Nat.add_sub_cancel_left]
    have hlower : (if 0xf0 + c.toNat / 262144 = 0xf0 then 0x90 else 0x80) ≤
        0x80 + c.toNat / 4096 % 64 := by
      split_ifs <;> omega
    have hupper : 0x80 + c.toNat / 4096 % 64 ≤
        if 0xf0 + c.toNat / 262144 = 0xf4 then 0x8f else 0xbf := by
      split_ifs <;> omega
    rw [List.cons_append, List.cons_append, List.cons_append, List.singleton_append,
      decodeFrom_lead hlead, List.nil_append, decodeFrom_tail hlower hupper,
      decodeFrom_tail (by omega) (by omega), decodeFrom_last (by omega) (by omega),
      hchar _ (by omega)]

theorem decodeFrom_flatMap (cs : List Char) :
    WebText.decodeFrom .start (cs.flatMap utf8Bytes) = cs := by
  induction cs with
  | nil => rfl
  | cons c cs ih => rw [List.flatMap_cons, decodeFrom_utf8Bytes, ih]

end Utf8

section Percent

def hexDigit (n : ℕ) : Char :=
  if n < 10 then Char.ofNat (48 + n) else Char.ofNat (55 + n)

def hexValue (c : Char) : Option ℕ :=
  if '0' ≤ c ∧ c ≤ '9' then some (c.toNat - 48)
  else if 'a' ≤ c ∧ c ≤ 'f' then some (c.toNat - 87)
  else if 'A' ≤ c ∧ c ≤ 'F' then some (c.toNat - 55)
  else none

def encodeByte (byte : ℕ) : List Char :=
  ['%', hexDigit (byte / 16), hexDigit (byte % 16)]

def encodeChar (keep : Char → Bool) (c : Char) : List Char :=
  if keep c then [c] else (utf8Bytes c).flatMap encodeByte

def encode (keep : Char → Bool) (s : String) : String :=
  String.ofList (s.toList.flatMap (encodeChar keep))

/-- A `%` without two hexadecimal digits stands for itself. -/
def bytesOf : List Char → List ℕ
  | '%' :: high :: low :: rest =>
      match hexValue high, hexValue low with
      | some h, some l => (16 * h + l) :: bytesOf rest
      | _, _ => utf8Bytes '%' ++ bytesOf (high :: low :: rest)
  | c :: rest => utf8Bytes c ++ bytesOf rest
  | [] => []

def decode (s : String) : String :=
  String.ofList (WebText.decodeFrom .start (bytesOf s.toList))

variable {keep : Char → Bool}

theorem hexValue_hexDigit : ∀ n < 16, hexValue (hexDigit n) = some n := by
  decide

theorem hexDigit_isAlphanum : ∀ n < 16, (hexDigit n).isAlphanum = true := by
  decide

theorem bytesOf_cons_ne {c : Char} (hc : c ≠ '%') (rest : List Char) :
    bytesOf (c :: rest) = utf8Bytes c ++ bytesOf rest := by
  match rest with
  | [] => simp [bytesOf]
  | [_] => simp [bytesOf]
  | _ :: _ :: _ => simp [bytesOf, hc]

theorem bytesOf_encodeByte {byte : ℕ} (hbyte : byte < 256) (rest : List Char) :
    bytesOf (encodeByte byte ++ rest) = byte :: bytesOf rest := by
  have hhigh := hexValue_hexDigit (byte / 16) (by omega)
  have hlow := hexValue_hexDigit (byte % 16) (by omega)
  have hsum : 16 * (byte / 16) + byte % 16 = byte := by omega
  simp [encodeByte, bytesOf, hhigh, hlow, hsum]

theorem bytesOf_encodeBytes {bytes : List ℕ} (hbytes : ∀ byte ∈ bytes, byte < 256)
    (rest : List Char) : bytesOf (bytes.flatMap encodeByte ++ rest) = bytes ++ bytesOf rest := by
  induction bytes with
  | nil => rfl
  | cons byte bytes ih =>
      obtain ⟨hbyte, hothers⟩ := List.forall_mem_cons.mp hbytes
      rw [List.flatMap_cons, List.append_assoc, bytesOf_encodeByte hbyte, ih hothers,
        List.cons_append]

theorem bytesOf_encode (hkeep : keep '%' = false) (cs : List Char) :
    bytesOf (cs.flatMap (encodeChar keep)) = cs.flatMap utf8Bytes := by
  induction cs with
  | nil => rfl
  | cons c cs ih =>
      rw [List.flatMap_cons, List.flatMap_cons, ← ih]
      unfold encodeChar
      split_ifs with hc
      · have hne : c ≠ '%' := by
          rintro rfl
          rw [hkeep] at hc
          cases hc
        exact bytesOf_cons_ne hne _
      · exact bytesOf_encodeBytes (utf8Bytes_lt c) _

theorem decode_encode (hkeep : keep '%' = false) (s : String) : decode (encode keep s) = s := by
  rw [decode, encode, String.toList_ofList, bytesOf_encode hkeep, decodeFrom_flatMap,
    String.ofList_toList]

/-- What an encoded text is written with. -/
theorem mem_encode {s : String} {c : Char} (hc : c ∈ (encode keep s).toList) :
    keep c = true ∨ c = '%' ∨ c.isAlphanum = true := by
  rw [encode, String.toList_ofList] at hc
  obtain ⟨plain, -, hc⟩ := List.mem_flatMap.mp hc
  unfold encodeChar at hc
  split_ifs at hc with hkeep
  · rw [List.mem_singleton.mp hc]
    exact .inl hkeep
  · obtain ⟨byte, hbyte, hc⟩ := List.mem_flatMap.mp hc
    have hlt := utf8Bytes_lt plain byte hbyte
    simp only [encodeByte, List.mem_cons, List.not_mem_nil, or_false] at hc
    rcases hc with rfl | rfl | rfl
    · exact .inr (.inl rfl)
    · exact .inr (.inr (hexDigit_isAlphanum _ (by omega)))
    · exact .inr (.inr (hexDigit_isAlphanum _ (by omega)))

end Percent

end PercentText
