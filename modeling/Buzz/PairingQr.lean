import Buzz.ExceptRules
import Buzz.PairingSession
import Buzz.PercentText
import Buzz.Utf8Offsets

/-!
# The QR code of a pairing

The source shows a `nostrpair://` URI with its key, the session secret, one `relay` parameter for
each relay and the version; the target reads it back. Keys, percent coding and URLs come from
libraries. What the encoder writes is read back as it was. A version other than 1 is refused when
it is the last of the `v` parameters and fits a `u32`, and not otherwise.
-/

namespace Buzz

structure ParsedUrl where
  scheme : String
  hasHost : Bool
  deriving DecidableEq, Repr

/-- What the code takes from its libraries; `debug` is the quoted form of a text in a message. -/
structure QrLibraries where
  publicKeyFromHex : String → Except String Bytes32
  percentEncode : String → String
  percentDecode : String → String
  parseUrl : String → Except String ParsedUrl
  debug : String → String

section Text

def isLowercaseHex (c : Char) : Bool :=
  ('0' ≤ c && c ≤ '9') || ('a' ≤ c && c ≤ 'f')

def isHex64 (s : String) : Bool :=
  s.utf8ByteSize == 64 && s.toList.all isLowercaseHex

/-- The text before and after the first separator. -/
def splitOnce (separator : Char) : List Char → Option (List Char × List Char)
  | [] => none
  | c :: rest =>
      if c = separator then some ([], rest)
      else (splitOnce separator rest).map fun (before, after) => (c :: before, after)

def digitsOf (digits : List Char) : Option ℕ :=
  if digits ≠ [] ∧ digits.all Char.isDigit = true then some (JsonText.digitsValue digits) else none

/-- `parse::<u32>` of the source, without its error. -/
def parseU32 (s : String) : Option ℕ :=
  let digits :=
    match s.toList with
    | '+' :: rest => rest
    | text => text
  (digitsOf digits).filter (· < 2 ^ 32)

end Text

section Code

def zeroSecret : Bytes32 := ⟨List.replicate 32 0, by simp⟩

variable (lib : QrLibraries)

def encodeQr (payload : QrPayload) : String :=
  payload.relays.foldl (fun uri relay => uri ++ "&relay=" ++ lib.percentEncode relay)
    ("nostrpair://" ++ hexEncode payload.sourcePubkey.1 ++ "?secret=" ++
      hexEncode payload.sessionSecret.1) ++ "&v=1"

structure QueryParams where
  secretHex : Option String
  relays : List String
  version : Option ℕ

/-- One round of the loop over the pairs. -/
def QueryParams.add (params : QueryParams) (pair : List Char) : QueryParams :=
  match splitOnce '=' pair with
  | none => params
  | some (key, value) =>
      if key = "secret".toList then { params with secretHex := some (String.ofList value) }
      else if key = "relay".toList then
        { params with relays := params.relays ++ [lib.percentDecode (String.ofList value)] }
      else if key = "v".toList then { params with version := parseU32 (String.ofList value) }
      else params

def parseQuery (query : List Char) : QueryParams :=
  (query.splitOn '&').foldl (QueryParams.add lib) ⟨none, [], none⟩

def decodeSecret (secret : String) : Except PairingError Bytes32 :=
  if isHex64 secret = false then
    .error (.invalidQr ("secret must be 64 lowercase hex chars, got " ++ lib.debug secret))
  else
    match hexDecode secret with
    | none => .error (.invalidQr "invalid secret hex")
    | some bytes =>
        if h : bytes.length = 32 then
          if (⟨bytes, h⟩ : Bytes32) = zeroSecret then
            .error (.invalidQr "session_secret must not be all zeros")
          else .ok ⟨bytes, h⟩
        else .error (.invalidQr "secret must be exactly 32 bytes")

def checkRelay (relay : String) : Except PairingError Unit :=
  match lib.parseUrl relay with
  | .error e => .error (.invalidQr ("invalid relay URL " ++ lib.debug relay ++ ": " ++ e))
  | .ok parsed =>
      if parsed.scheme ≠ "wss" ∧ parsed.scheme ≠ "ws" then
        .error (.invalidQr
          ("relay URL must use wss:// or ws:// scheme, got " ++ lib.debug parsed.scheme))
      else if parsed.hasHost = false then
        .error (.invalidQr ("relay URL has no host: " ++ lib.debug relay))
      else .ok ()

def checkRelays : List String → Except PairingError Unit
  | [] => .ok ()
  | relay :: rest =>
      match checkRelay lib relay with
      | .error e => .error e
      | .ok () => checkRelays rest

def decodeParams (sourcePubkey : Bytes32) (params : QueryParams) : Except PairingError QrPayload :=
  let version := params.version.getD 1
  if version ≠ 1 then
    .error (.invalidQr ("unsupported protocol version " ++ toString version ++ ", expected 1"))
  else
    match params.secretHex with
    | none => .error (.invalidQr "missing 'secret' query parameter")
    | some secret =>
        match decodeSecret lib secret with
        | .error e => .error e
        | .ok sessionSecret =>
            if params.relays = [] then
              .error (.invalidQr "at least one 'relay' query parameter is required")
            else
              match checkRelays lib params.relays with
              | .error e => .error e
              | .ok () => .ok ⟨version, sourcePubkey, sessionSecret, params.relays⟩

def decodeQr (uri : String) : Except PairingError QrPayload :=
  if 2048 < uri.utf8ByteSize then
    .error (.invalidQr
      ("URI exceeds 2048-character limit (" ++ toString uri.utf8ByteSize ++ " chars)"))
  else
    match uri.toList.dropPrefix? "nostrpair://".toList with
    | none => .error (.invalidQr "URI must start with nostrpair://")
    | some rest =>
        match splitOnce '?' rest with
        | none =>
            .error (.invalidQr "missing query string (expected ?secret=…&relay=…)")
        | some (pubkey, query) =>
            let pubkeyHex := String.ofList pubkey
            if isHex64 pubkeyHex = false then
              .error (.invalidQr ("pubkey must be 64 lowercase hex chars, got " ++
                lib.debug pubkeyHex))
            else
              match lib.publicKeyFromHex pubkeyHex with
              | .error e => .error (.invalidQr ("invalid pubkey: " ++ e))
              | .ok sourcePubkey => decodeParams lib sourcePubkey (parseQuery lib query)

end Code

section Query

variable {separator : Char} {before after text : List Char}

theorem splitOnce_append (h : separator ∉ before) (after : List Char) :
    splitOnce separator (before ++ separator :: after) = some (before, after) := by
  induction before with
  | nil => simp [splitOnce]
  | cons c before ih =>
      rw [List.mem_cons, not_or] at h
      rw [List.cons_append, splitOnce, if_neg (Ne.symm h.1), ih h.2]
      rfl

theorem splitOnce_eq_some (h : splitOnce separator text = some (before, after)) :
    text = before ++ separator :: after ∧ separator ∉ before := by
  induction text generalizing before with
  | nil => cases h
  | cons c rest ih =>
      rw [splitOnce] at h
      split_ifs at h with hc
      · obtain ⟨rfl, rfl⟩ := Prod.mk.inj (Option.some.inj h)
        exact ⟨by rw [hc, List.nil_append], List.not_mem_nil⟩
      · obtain ⟨⟨first, last⟩, hsplit, heq⟩ := Option.map_eq_some_iff.mp h
        obtain ⟨rfl, rfl⟩ := Prod.mk.inj heq
        obtain ⟨rfl, hfirst⟩ := ih hsplit
        refine ⟨rfl, ?_⟩
        rw [List.mem_cons, not_or]
        exact ⟨Ne.symm hc, hfirst⟩

def valueOf (key : String) (pair : List Char) : Option String :=
  match splitOnce '=' pair with
  | some (name, value) => if name = key.toList then some (String.ofList value) else none
  | none => none

/-- The values of a parameter, as often as it is repeated. -/
def paramValues (key : String) (query : List Char) : List String :=
  (query.splitOn '&').filterMap (valueOf key)

variable {lib : QrLibraries}

theorem valueOf_of_none {pair : List Char} (h : splitOnce '=' pair = none) (key : String) :
    valueOf key pair = none := by
  simp only [valueOf, h]

theorem valueOf_of_some {pair name value : List Char} (h : splitOnce '=' pair = some (name, value))
    (key : String) :
    valueOf key pair = if name = key.toList then some (String.ofList value) else none := by
  simp only [valueOf, h]

/-- The last secret and the last version stand, the relays are collected. -/
theorem foldl_add_params (pairs : List (List Char)) :
    pairs.foldl (QueryParams.add lib) ⟨none, [], none⟩ =
      { secretHex := (pairs.filterMap (valueOf "secret")).getLast?
        relays := (pairs.filterMap (valueOf "relay")).map lib.percentDecode
        version := (pairs.filterMap (valueOf "v")).getLast?.bind parseU32 } := by
  induction pairs using List.reverseRecOn with
  | nil => rfl
  | append_singleton pairs pair ih =>
      rw [List.foldl_append, ih, List.foldl_cons, List.foldl_nil, QueryParams.add]
      simp only [List.filterMap_append, List.filterMap_cons, List.filterMap_nil]
      cases hsplit : splitOnce '=' pair with
      | none => simp [valueOf_of_none hsplit]
      | some parts =>
          obtain ⟨name, value⟩ := parts
          simp only [valueOf_of_some hsplit]
          by_cases hname : name = "secret".toList
          · subst hname
            simp
          · by_cases hname' : name = "relay".toList
            · subst hname'
              simp
            · by_cases hname'' : name = "v".toList
              · subst hname''
                simp
              · simp only [if_neg hname, if_neg hname', if_neg hname'', List.append_nil]

theorem parseQuery_eq (query : List Char) :
    parseQuery lib query =
      { secretHex := (paramValues "secret" query).getLast?
        relays := (paramValues "relay" query).map lib.percentDecode
        version := (paramValues "v" query).getLast?.bind parseU32 } :=
  foldl_add_params _

end Query

section Decoding

variable (lib : QrLibraries)

def QrLibraries.AcceptsRelay (relay : String) : Prop :=
  ∃ parsed, lib.parseUrl relay = .ok parsed ∧ (parsed.scheme = "wss" ∨ parsed.scheme = "ws") ∧
    parsed.hasHost = true

/-- Everything that a URI is checked for, its version apart. -/
structure QrParts (uri : String) (pubkey query : List Char) (payload : QrPayload) : Prop where
  length : uri.utf8ByteSize ≤ 2048
  text : uri.toList = "nostrpair://".toList ++ (pubkey ++ '?' :: query)
  first : '?' ∉ pubkey
  hex : isHex64 (String.ofList pubkey) = true
  key : lib.publicKeyFromHex (String.ofList pubkey) = .ok payload.sourcePubkey
  secret : ∃ secret, (paramValues "secret" query).getLast? = some secret ∧
    decodeSecret lib secret = .ok payload.sessionSecret
  relays : payload.relays = (paramValues "relay" query).map lib.percentDecode
  some_relay : payload.relays ≠ []
  accepted : ∀ relay ∈ payload.relays, lib.AcceptsRelay relay

variable {lib} {uri : String} {payload : QrPayload}

theorem checkRelay_ok_iff {relay : String} :
    checkRelay lib relay = .ok () ↔ lib.AcceptsRelay relay := by
  unfold checkRelay QrLibraries.AcceptsRelay
  cases hparse : lib.parseUrl relay with
  | error e => simp
  | ok parsed =>
      simp only [Except.ok.injEq, exists_eq_left']
      split_ifs with hscheme hhost
      · refine iff_of_false (fun h => nomatch h) fun h => ?_
        rcases h.1 with h | h
        · exact hscheme.1 h
        · exact hscheme.2 h
      · simp [hhost]
      · refine iff_of_true rfl ⟨?_, Bool.eq_true_of_not_eq_false hhost⟩
        by_contra hneither
        rw [not_or] at hneither
        exact hscheme hneither

theorem checkRelays_ok_iff {relays : List String} :
    checkRelays lib relays = .ok () ↔ ∀ relay ∈ relays, lib.AcceptsRelay relay := by
  induction relays with
  | nil => simp [checkRelays]
  | cons relay relays ih =>
      rw [checkRelays, List.forall_mem_cons, ← checkRelay_ok_iff, ← ih]
      cases checkRelay lib relay with
      | error e => simp
      | ok _ => simp

theorem decodeParams_ok_iff {sourcePubkey : Bytes32} {params : QueryParams} :
    decodeParams lib sourcePubkey params = .ok payload ↔
      params.version.getD 1 = 1 ∧ payload.version = 1 ∧ payload.sourcePubkey = sourcePubkey ∧
        (∃ secret, params.secretHex = some secret ∧
          decodeSecret lib secret = .ok payload.sessionSecret) ∧
        payload.relays = params.relays ∧ payload.relays ≠ [] ∧
        ∀ relay ∈ payload.relays, lib.AcceptsRelay relay := by
  obtain ⟨version, key, sessionSecret, relays⟩ := payload
  unfold decodeParams
  by_cases hversion : params.version.getD 1 = 1
  · simp only [hversion, ne_eq, not_true_eq_false, if_false, true_and]
    cases hsecret : params.secretHex with
    | none => simp
    | some secret =>
        cases hdecode : decodeSecret lib secret with
        | error e => simp [hdecode]
        | ok bytes =>
            simp only [hdecode]
            by_cases hrelays : params.relays = []
            · simp only [hrelays, if_true]
              exact iff_of_false (fun h => nomatch h) fun h => h.2.2.2.2.1 h.2.2.2.1
            · simp only [if_neg hrelays]
              cases hcheck : checkRelays lib params.relays with
              | error e =>
                  refine iff_of_false (fun h => nomatch h) fun h => ?_
                  have hok := checkRelays_ok_iff.mpr (h.2.2.2.1 ▸ h.2.2.2.2.2)
                  rw [hcheck] at hok
                  cases hok
              | ok _ =>
                  have haccepted := checkRelays_ok_iff.mp hcheck
                  constructor
                  · intro h
                    obtain ⟨rfl, rfl, rfl, rfl⟩ := QrPayload.mk.inj (Except.ok.inj h)
                    exact ⟨rfl, rfl, ⟨secret, rfl, hdecode⟩, rfl, hrelays, haccepted⟩
                  · rintro ⟨rfl, rfl, ⟨found, hfound, hsame⟩, rfl, -, -⟩
                    obtain rfl := Option.some.inj hfound
                    rw [hdecode] at hsame
                    obtain rfl := Except.ok.inj hsame
                    rfl
  · simp [hversion]

theorem decodeQr_ok_iff :
    decodeQr lib uri = .ok payload ↔ payload.version = 1 ∧ ∃ pubkey query,
      QrParts lib uri pubkey query payload ∧
        ((paramValues "v" query).getLast?.bind parseU32).getD 1 = 1 := by
  unfold decodeQr
  constructor
  · intro h
    split_ifs at h with hlength
    split at h
    · cases h
    · rename_i rest hprefix
      split at h
      · cases h
      · rename_i pubkey query hsplit
        simp only at h
        split_ifs at h with hhex
        split at h
        · cases h
        · rename_i sourcePubkey hkey
          rw [decodeParams_ok_iff, parseQuery_eq] at h
          obtain ⟨hversion, hone, hsource, hsecret, hrelays, hsome, haccepted⟩ := h
          obtain ⟨scheme, htext, hscheme⟩ := List.dropPrefix?_eq_some_iff.mp hprefix
          obtain ⟨rfl, hfirst⟩ := splitOnce_eq_some hsplit
          rw [beq_iff_eq.mp hscheme] at htext
          exact ⟨hone, pubkey, query,
            ⟨Nat.not_lt.mp hlength, htext, hfirst, Bool.eq_true_of_not_eq_false hhex,
              hsource ▸ hkey, hsecret, hrelays, hsome, haccepted⟩, hversion⟩
  · rintro ⟨hone, pubkey, query, h, hversion⟩
    rw [if_neg (Nat.not_lt.mpr h.length), h.text,
      List.dropPrefix?_append_of_beq _ (beq_self_eq_true _)]
    simp only [splitOnce_append h.first, h.hex, Bool.true_eq_false, if_false, h.key]
    rw [decodeParams_ok_iff, parseQuery_eq]
    exact ⟨hversion, hone, rfl, h.secret, h.relays, h.some_relay, h.accepted⟩

end Decoding

section Libraries

/-- A host of letters, digits, `.` and `-` behind `wss://` or `ws://`. -/
def webSocketUrl (text : String) : Except String ParsedUrl :=
  let parsed (scheme : String) (rest : List Char) : Except String ParsedUrl :=
    let host := rest.takeWhile fun c => c.isAlphanum || c == '.' || c == '-'
    if host = [] then .error "empty host" else .ok ⟨scheme, true⟩
  match text.toList.dropPrefix? "wss://".toList, text.toList.dropPrefix? "ws://".toList with
  | some rest, _ => parsed "wss" rest
  | none, some rest => parsed "ws" rest
  | none, none => .error "relative URL without a base"

def documentedLibraries : QrLibraries where
  publicKeyFromHex s :=
    match hexDecode32 s with
    | some key => .ok key
    | none => .error "Invalid public key"
  percentEncode := PercentText.encode Char.isAlphanum
  percentDecode := PercentText.decode
  parseUrl := webSocketUrl
  debug s := s

end Libraries

section Version

/-- The number that a text denotes, signed or not, whatever its size. -/
def denotes (value : String) : Option ℤ :=
  match value.toList with
  | '-' :: digits => (digitsOf digits).map fun n => -(n : ℤ)
  | '+' :: digits => (digitsOf digits).map Int.ofNat
  | digits => (digitsOf digits).map Int.ofNat

/-- The `v` parameters of a URI, in order. -/
def versionParams (uri : String) : List String :=
  match splitOnce '?' uri.toList with
  | none => []
  | some (_, query) => paramValues "v" query

def CarriesOtherVersion (uri : String) : Prop :=
  ∃ value ∈ versionParams uri, ∃ n, denotes value = some n ∧ n ≠ 1

variable {lib : QrLibraries} {uri : String}

theorem QrParts.versionParams_eq {pubkey query : List Char} {payload : QrPayload}
    (h : QrParts lib uri pubkey query payload) : versionParams uri = paramValues "v" query := by
  have hfirst : '?' ∉ "nostrpair://".toList ++ pubkey := by
    rw [List.mem_append, not_or]
    exact ⟨by decide, h.first⟩
  rw [versionParams, h.text, ← List.append_assoc, splitOnce_append hfirst]

variable (lib uri) in
/-- The last `v` parameter decides, and only when it fits a `u32`. -/
theorem version_refused_iff :
    (CarriesOtherVersion uri → ∃ e, decodeQr lib uri = .error e) ↔
      (CarriesOtherVersion uri →
        (∃ value n, (versionParams uri).getLast? = some value ∧ parseU32 value = some n ∧ n ≠ 1) ∨
          ¬∃ pubkey query payload, QrParts lib uri pubkey query payload) := by
  refine forall_congr' fun _ => ?_
  have hrefused : (∃ e, decodeQr lib uri = .error e) ↔ ¬∃ payload,
      decodeQr lib uri = .ok payload := by
    cases decodeQr lib uri with
    | error e => simp
    | ok payload => simp
  rw [hrefused]
  constructor
  · intro hnone
    rw [or_iff_not_imp_right, not_not]
    rintro ⟨pubkey, query, payload, h⟩
    rw [h.versionParams_eq]
    by_contra hlast
    have hversion : ((paramValues "v" query).getLast?.bind parseU32).getD 1 = 1 := by
      by_contra hne
      cases hvalue : (paramValues "v" query).getLast? with
      | none => simp [hvalue] at hne
      | some value =>
          cases hparsed : parseU32 value with
          | none => simp [hvalue, hparsed] at hne
          | some n => exact hlast ⟨value, n, hvalue, hparsed, by simpa [hvalue, hparsed] using hne⟩
    exact hnone ⟨{ payload with version := 1 }, decodeQr_ok_iff.mpr ⟨rfl, pubkey, query,
      ⟨h.length, h.text, h.first, h.hex, h.key, h.secret, h.relays, h.some_relay, h.accepted⟩,
      hversion⟩⟩
  · rintro hrefuses ⟨payload, hok⟩
    obtain ⟨-, pubkey, query, h, hversion⟩ := decodeQr_ok_iff.mp hok
    rcases hrefuses with ⟨value, n, hvalue, hparsed, hne⟩ | hnone
    · rw [h.versionParams_eq] at hvalue
      rw [hvalue, Option.bind_some, hparsed, Option.getD_some] at hversion
      exact hne hversion
    · exact hnone ⟨pubkey, query, payload, h⟩

/-- A version that does not fit a `u32` passes for version 1. -/
theorem version_beyond_u32_accepted :
    ¬∀ uri, CarriesOtherVersion uri → ∃ e, decodeQr documentedLibraries uri = .error e := by
  intro h
  obtain ⟨e, he⟩ :=
    h ("nostrpair://79be667ef9dcbbac55a06295ce870b07029bfcdb2dce28d959f2815b16f81798" ++
    "?secret=abababababababababababababababababababababababababababababababab" ++
    "&relay=wss%3A%2F%2Frelay%2Eexample%2Ecom&v=4294967296")
    ⟨"4294967296", by decide +kernel, 4294967296, by decide +kernel, by decide⟩
  have hok : (decodeQr documentedLibraries
      ("nostrpair://79be667ef9dcbbac55a06295ce870b07029bfcdb2dce28d959f2815b16f81798" ++
        "?secret=abababababababababababababababababababababababababababababababab" ++
        "&relay=wss%3A%2F%2Frelay%2Eexample%2Ecom&v=4294967296")).isOk = true := by
    decide +kernel
  rw [he] at hok
  cases hok

end Version

section RoundTrip

/-- What is documented of the percent coding: everything except ASCII letters and digits is
escaped, and decoding undoes it. -/
structure QrLibraries.PercentLaws (lib : QrLibraries) : Prop where
  encoded : ∀ s, ∀ c ∈ (lib.percentEncode s).toList, c = '%' ∨ c.isAlphanum = true
  decode_encode : ∀ s, lib.percentDecode (lib.percentEncode s) = s

theorem hexDigit_lowercase : ∀ n < 16, isLowercaseHex (hexDigit n) = true := by
  decide

theorem hexEncode_chars (bytes : List UInt8) :
    ∀ c ∈ (hexEncode bytes).toList, isLowercaseHex c = true := by
  intro c hc
  rw [hexEncode, String.toList_ofList] at hc
  obtain ⟨b, -, hc⟩ := List.mem_flatMap.mp hc
  have hb : b.toNat < 256 := b.toNat_lt
  simp only [List.mem_cons, List.not_mem_nil, or_false] at hc
  rcases hc with rfl | rfl
  · exact hexDigit_lowercase _ (by omega)
  · exact hexDigit_lowercase _ (by omega)

theorem length_hexEncode (bytes : List UInt8) :
    (hexEncode bytes).toList.length = 2 * bytes.length := by
  rw [hexEncode, String.toList_ofList]
  induction bytes with
  | nil => rfl
  | cons b bytes ih =>
      rw [List.flatMap_cons, List.length_append, ih, List.length_cons, List.length_cons,
        List.length_cons, List.length_nil]
      omega

theorem isLowercaseHex_bounds {c : Char} (h : isLowercaseHex c = true) :
    c.toNat < 128 ∧ c ≠ '?' ∧ c ≠ '&' ∧ c ≠ '=' := by
  refine ⟨?_, ?_, ?_, ?_⟩
  · simp only [isLowercaseHex, Bool.or_eq_true, Bool.and_eq_true, decide_eq_true_eq, Char.le_def,
      UInt32.le_iff_toNat_le] at h
    have hlarge : c.val.toNat ≤ 'f'.val.toNat := by
      rcases h with h | h
      · exact h.2.trans (by decide)
      · exact h.2
    exact Nat.lt_of_le_of_lt hlarge (by decide)
  all_goals
    rintro rfl
    revert h
    decide

theorem isHex64_hexEncode (bytes : Bytes32) : isHex64 (hexEncode bytes.1) = true := by
  have hascii : ∀ c ∈ (hexEncode bytes.1).toList, c.toNat < 128 := fun c hc =>
    (isLowercaseHex_bounds (hexEncode_chars _ c hc)).1
  have hsize : (hexEncode bytes.1).utf8ByteSize = 64 := by
    rw [Utf8Offsets.utf8ByteSize_eq, Utf8Offsets.size_of_ascii hascii, length_hexEncode, bytes.2]
  rw [isHex64, hsize, Bool.and_eq_true]
  exact ⟨by decide, List.all_eq_true.mpr (hexEncode_chars bytes.1)⟩

variable {lib : QrLibraries} {payload : QrPayload}

theorem decodeSecret_hexEncode {secret : Bytes32} (h : secret ≠ zeroSecret) :
    decodeSecret lib (hexEncode secret.1) = .ok secret := by
  have hdecode : hexDecode (hexEncode secret.1) = some secret.1 := by
    rw [hexDecode, hexEncode, String.toList_ofList, hexPairs_encode]
  simp only [decodeSecret, isHex64_hexEncode, Bool.true_eq_false, if_false, hdecode, secret.2,
    dif_pos]
  exact if_neg h

variable (lib payload) in
/-- The parameters that the encoder writes. -/
def encodedPairs : List (List Char) :=
  ("secret".toList ++ '=' :: (hexEncode payload.sessionSecret.1).toList) ::
    (payload.relays.map fun relay => "relay".toList ++ '=' :: (lib.percentEncode relay).toList) ++
    ["v".toList ++ '=' :: "1".toList]

theorem toList_foldl_relays (relays : List String) (uri : String) :
    (relays.foldl (fun uri relay => uri ++ "&relay=" ++ lib.percentEncode relay) uri).toList =
      uri.toList ++ (relays.map fun relay =>
        "relay".toList ++ '=' :: (lib.percentEncode relay).toList).flatMap ('&' :: ·) := by
  induction relays generalizing uri with
  | nil => simp
  | cons relay relays ih => simp [ih]

theorem intercalate_cons {α : Type} (separator : α) (piece : List α) (pieces : List (List α)) :
    [separator].intercalate (piece :: pieces) = piece ++ pieces.flatMap (separator :: ·) := by
  induction pieces generalizing piece with
  | nil => simp
  | cons next pieces ih =>
      rw [List.intercalate_cons_cons, ih, List.flatMap_cons]
      simp

theorem toList_encodeQr :
    (encodeQr lib payload).toList = "nostrpair://".toList ++
      ((hexEncode payload.sourcePubkey.1).toList ++ '?' ::
        ['&'].intercalate (encodedPairs lib payload)) := by
  rw [encodeQr, String.toList_append, toList_foldl_relays, encodedPairs, List.cons_append,
    intercalate_cons]
  simp

theorem valueOf_pair {name value : List Char} (h : '=' ∉ name) (key : String) :
    valueOf key (name ++ '=' :: value) =
      if name = key.toList then some (String.ofList value) else none := by
  rw [valueOf_of_some (splitOnce_append h value)]

/-- An escaped relay has none of the characters that the decoder splits at. -/
theorem QrLibraries.PercentLaws.not_mem (h : lib.PercentLaws) (relay : String) :
    '&' ∉ (lib.percentEncode relay).toList := by
  intro hmem
  rcases h.encoded relay _ hmem with h | h
  · exact absurd h (by decide)
  · exact absurd h (by decide)

theorem encodedPairs_split (h : lib.PercentLaws) :
    (['&'].intercalate (encodedPairs lib payload)).splitOn '&' = encodedPairs lib payload := by
  apply List.splitOn_intercalate
  · intro pair hpair
    rw [encodedPairs, List.cons_append, List.mem_cons, List.mem_append, List.mem_map,
      List.mem_singleton] at hpair
    rcases hpair with rfl | ⟨relay, -, rfl⟩ | rfl
    · rw [List.mem_append, List.mem_cons, not_or, not_or]
      exact ⟨by decide, by decide, fun hmem =>
        (isLowercaseHex_bounds (hexEncode_chars _ _ hmem)).2.2.1 rfl⟩
    · rw [List.mem_append, List.mem_cons, not_or, not_or]
      exact ⟨by decide, by decide, h.not_mem relay⟩
    · decide
  · simp [encodedPairs]

variable (payload) in
theorem paramValues_encoded (h : lib.PercentLaws) (key : String) :
    paramValues key (['&'].intercalate (encodedPairs lib payload)) =
      (if "secret" = key then [hexEncode payload.sessionSecret.1] else []) ++
        (if "relay" = key then payload.relays.map lib.percentEncode else []) ++
          (if "v" = key then ["1"] else []) := by
  have hkey (name : String) : name.toList = key.toList ↔ name = key := String.toList_inj
  rw [paramValues, encodedPairs_split h, encodedPairs, List.filterMap_append, List.filterMap_cons,
    List.filterMap_map, List.filterMap_cons, List.filterMap_nil]
  have hrelay : (valueOf key ∘ fun relay =>
      "relay".toList ++ '=' :: (lib.percentEncode relay).toList) =
        fun relay => if "relay" = key then some (lib.percentEncode relay) else none := by
    funext relay
    rw [Function.comp_apply, valueOf_pair (by decide)]
    simp only [hkey, String.ofList_toList]
  rw [hrelay, valueOf_pair (by decide), valueOf_pair (by decide)]
  simp only [hkey, String.ofList_toList]
  by_cases hsecret : "secret" = key
  · subst hsecret
    simp
  · by_cases hrelays : "relay" = key
    · subst hrelays
      simp
    · by_cases hversion : "v" = key
      · subst hversion
        simp
      · simp [hsecret, hrelays, hversion]

/-- The scanned code is the shown one, whatever the relay URLs contain. -/
theorem decodeQr_encodeQr (hlaws : lib.PercentLaws)
    (hkey : lib.publicKeyFromHex (hexEncode payload.sourcePubkey.1) = .ok payload.sourcePubkey)
    (hsecret : payload.sessionSecret ≠ zeroSecret) (hrelays : payload.relays ≠ [])
    (haccepted : ∀ relay ∈ payload.relays, lib.AcceptsRelay relay)
    (hlength : (encodeQr lib payload).utf8ByteSize ≤ 2048) :
    decodeQr lib (encodeQr lib payload) = .ok { payload with version := 1 } := by
  have hvalues := paramValues_encoded payload hlaws
  have hdecoded : (payload.relays.map lib.percentEncode).map lib.percentDecode =
      payload.relays := by
    rw [List.map_map]
    conv_rhs => rw [← List.map_id payload.relays]
    exact List.map_congr_left fun relay _ => hlaws.decode_encode relay
  have hone : ((some "1").bind parseU32).getD 1 = 1 := by decide +kernel
  refine decodeQr_ok_iff.mpr ⟨rfl, _, _,
    ⟨hlength, toList_encodeQr, ?_, ?_, ?_, ?_, ?_, hrelays, haccepted⟩, ?_⟩
  · exact fun hmem => (isLowercaseHex_bounds (hexEncode_chars _ _ hmem)).2.1 rfl
  · rw [String.ofList_toList]
    exact isHex64_hexEncode _
  · rw [String.ofList_toList]
    exact hkey
  · refine ⟨hexEncode payload.sessionSecret.1, ?_, decodeSecret_hexEncode hsecret⟩
    rw [hvalues]
    simp
  · rw [hvalues]
    simp only [String.reduceEq, if_false, if_true, List.nil_append, List.append_nil]
    exact hdecoded.symm
  · rw [hvalues]
    simpa using hone

theorem documentedLibraries_percentLaws : documentedLibraries.PercentLaws where
  encoded s c hc := by
    rcases PercentText.mem_encode hc with h | h | h
    · exact .inr h
    · exact .inl h
    · exact .inr h
  decode_encode := PercentText.decode_encode (by decide)

/-- A relay with characters that stand for something in a query. -/
def tokenPayload : QrPayload :=
  ⟨1, ⟨List.replicate 32 0xc3, by decide⟩, ⟨List.replicate 32 0xab, by decide⟩,
    ["wss://relay.example.com/path?token=abc&flag=1#ü%20", "ws://localhost:3000"]⟩

theorem decodeQr_encodeQr_token :
    decodeQr documentedLibraries (encodeQr documentedLibraries tokenPayload) =
      .ok { tokenPayload with version := 1 } :=
  decodeQr_encodeQr documentedLibraries_percentLaws (by decide +kernel) (by decide) (by decide)
    (by
      have hrelays : ∀ relay ∈ tokenPayload.relays,
          documentedLibraries.parseUrl relay = .ok ⟨"wss", true⟩ ∨
            documentedLibraries.parseUrl relay = .ok ⟨"ws", true⟩ := by
        decide +kernel
      intro relay hrelay
      rcases hrelays relay hrelay with h | h
      · exact ⟨_, h, .inl rfl, rfl⟩
      · exact ⟨_, h, .inr rfl, rfl⟩)
    (by decide +kernel)

end RoundTrip

end Buzz
