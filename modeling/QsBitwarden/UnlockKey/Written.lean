import QsBitwarden.Lib.JsonSize
import QsBitwarden.UnlockKey.Stored

/-! Owns the size of the envelope as a file: that whatever the operations write is read
back exactly when the file has not grown too large, which short texts rule out and long
relying parties do not. It does not own the checks themselves. -/

namespace QsBitwarden.UnlockKey

open Lib Json List Envelope

variable {crypto : Crypto} {floats : FloatText} {envelope : Envelope}

/-! ### Sizes of the parts -/

theorem length_toJson (floats : FloatText) (envelope : Envelope) :
    (envelope.toJson floats).length = size (write floats.print envelope.toValue) := by
  rw [toJson, utf8_eq_data, size_eq_utf8Len, ← String.utf8ByteSize_ofList]
  rfl

/-- Characters that JSON writes as they are, in one byte. -/
def PlainChar (char : Char) : Prop := 32 ≤ char.toNat ∧ char.toNat < 128 ∧ char ≠ '"' ∧ char ≠ '\\'

theorem plainChar_of_isSymbol {char : Char} (symbol : Base64.isSymbol char = true) :
    PlainChar char := by
  simp only [Base64.isSymbol, isAsciiAlphanumeric, Bool.or_eq_true, decide_eq_true_eq,
    mem_cons, not_mem_nil, or_false] at symbol
  rcases symbol with letter | rfl | rfl | rfl
  · refine ⟨by omega, by omega, ?_, ?_⟩ <;> rintro rfl <;> exact absurd letter (by decide)
  all_goals exact ⟨by decide, by decide, by decide, by decide⟩

theorem quotedSize_of_symbols {text : String}
    (symbols : text.toList.all Base64.isSymbol = true) :
    quotedSize text = text.length + 2 :=
  quotedSize_of_plain fun char mem =>
    plainChar_of_isSymbol (all_eq_true.mp symbols char mem)

theorem quotedSize_of_decode (sized : Sized crypto) {text : String} {bytes : Bytes}
    (decoded : crypto.decode text = some bytes) :
    quotedSize text = 4 * ((bytes.length + 2) / 3) + 2 := by
  obtain ⟨symbols, length⟩ := sized.text decoded
  rw [quotedSize_of_symbols symbols, length]

theorem Stored.quotedSize_le (sized : Sized crypto) {length : ℕ} {n c : String}
    (stored : Stored crypto length n c) :
    quotedSize n = 34 ∧ quotedSize c ≤ 4 * ((length + tagLen + 2) / 3) + 2 := by
  obtain ⟨nonce, sealed, nDecodes, cDecodes, nonceSize, sealedSize⟩ := stored
  rw [quotedSize_of_decode sized nDecodes, quotedSize_of_decode sized cDecodes, nonceSize]
  have thirds : (sealed.length + 2) / 3 ≤ (length + tagLen + 2) / 3 := by
    apply Nat.div_le_div_right
    omega
  exact ⟨rfl, by omega⟩

/-- What `write` makes of a string. -/
theorem size_string (text : String) :
    size (write floats.print (.string text)) = quotedSize text := by
  rw [write, quotedSize]

theorem size_natural_le {value digits : ℕ} (positive : 0 < digits) (small : value < 10 ^ digits) :
    size (write floats.print (natural value)) ≤ digits :=
  size_writeNat_le positive small

theorem size_params_le {params : Argon2Params} (valid : params.validate = .ok ()) :
    size (write floats.print params.toValue) ≤ 118 := by
  obtain ⟨⟨⟩, alg, rest⟩ := ok_of_bind valid
  obtain ⟨salt, costs⟩ := of_require rest
  simp only [Argon2Params.saltOk, Argon2Params.costOk, Bool.and_eq_true, decide_eq_true_eq]
    at salt costs
  obtain ⟨⟨-, saltLength⟩, symbols⟩ := salt
  obtain ⟨⟨⟨-, m⟩, -, t⟩, -, p⟩ := costs
  simp only [argon2SaltMaxChars, argon2MaxMemoryKib, argon2MaxIterations, argon2MaxParallelism]
    at saltLength m t p
  have saltSize := quotedSize_of_symbols symbols
  have mSize := @size_natural_le floats params.m 7 (by decide) (by omega)
  have tSize := @size_natural_le floats params.t 2 (by decide) (by omega)
  have pSize := @size_natural_le floats params.p 2 (by decide) (by omega)
  have algSize : quotedSize params.alg = 10 := by
    rw [of_require alg]
    decide
  have keys : quotedSize "alg" = 5 ∧ quotedSize "salt" = 6 ∧ quotedSize "m" = 3 ∧
      quotedSize "t" = 3 ∧ quotedSize "p" = 3 := by decide
  rw [Argon2Params.toValue, size_object (by simp)]
  simp only [map_cons, map_nil, sum_cons, sum_nil, size_string, algSize]
  omega

theorem size_wrap_le (sized : Sized crypto) {wrap : PasswordWrap}
    (stored : StoredWrap crypto wrap) :
    size (write floats.print wrap.toValue) ≤ 236 := by
  have kdf := @size_params_le floats _ stored.kdf
  obtain ⟨n, c⟩ := stored.stored.quotedSize_le sized
  simp only [keyLen, tagLen] at c
  have keys : quotedSize "kdf" = 5 ∧ quotedSize "n" = 3 ∧ quotedSize "c" = 3 := by
    decide
  rw [PasswordWrap.toValue, size_object (by simp)]
  simp only [map_cons, map_nil, sum_cons, sum_nil, size_string, n]
  omega

theorem size_fido_le (sized : Sized crypto) {wrap : FidoWrap} (stored : StoredFido crypto wrap) :
    size (write floats.print wrap.toValue) ≤ quotedSize wrap.rp + 1549 := by
  obtain ⟨n, c⟩ := stored.stored.quotedSize_le sized
  obtain ⟨cred, credDecodes, rest⟩ := ok_of_bind stored.fields
  obtain ⟨⟨⟩, credOk, rest⟩ := ok_of_bind rest
  obtain ⟨⟨⟩, -, rest⟩ := ok_of_bind rest
  obtain ⟨⟨⟩, -, rest⟩ := ok_of_bind rest
  obtain ⟨salt, saltDecodes, saltOk⟩ := ok_of_bind rest
  have credSize := quotedSize_of_decode sized (some_of_orElse credDecodes)
  have saltSize := quotedSize_of_decode sized (some_of_orElse saltDecodes)
  have credLength := (of_require credOk).2
  rw [of_require saltOk] at saltSize
  simp only [maxCredentialBytes, fidoSaltLen, keyLen, tagLen] at credLength saltSize c
  have keys : quotedSize "cred" = 6 ∧ quotedSize "rp" = 4 ∧
      quotedSize "salt" = 6 ∧ quotedSize "n" = 3 ∧ quotedSize "c" = 3 := by decide
  rw [FidoWrap.toValue, size_object (by simp)]
  simp only [map_cons, map_nil, sum_cons, sum_nil, size_string, n]
  omega

/-- The texts of an envelope that are not bounded in bytes. -/
def Envelope.texts (envelope : Envelope) : List String :=
  [envelope.account.id, envelope.account.server] ++ envelope.wraps.fido.map FidoWrap.rp

theorem size_fidos_le (sized : Sized crypto) {fido : List FidoWrap} {bound : ℕ}
    (each : ∀ wrap ∈ fido, StoredFido crypto wrap)
    (short : ∀ wrap ∈ fido, quotedSize wrap.rp ≤ bound) :
    ((fido.map FidoWrap.toValue).map fun value =>
      size (write floats.print value) + 1).sum ≤ fido.length * (bound + 1550) := by
  induction fido with
  | nil => exact Nat.zero_le _
  | cons wrap rest ih =>
    have first := @size_fido_le crypto floats sized wrap (each wrap mem_cons_self)
    have rp := short wrap mem_cons_self
    have later := ih
      (fun other mem => each other (mem_cons_of_mem _ mem))
      fun other mem => short other (mem_cons_of_mem _ mem)
    rw [map_cons, map_cons, sum_cons, length_cons, Nat.succ_mul]
    omega

/-- A field that is written only if it has a value takes no more than with one. -/
theorem size_fieldIfSome_le {name : String} {value : Option Json} {bound : ℕ}
    (short : ∀ found ∈ value, size (write floats.print found) ≤ bound) :
    ((fieldIfSome name value).map fun field =>
      quotedSize field.1 + size (write floats.print field.2) + 2).sum ≤
        quotedSize name + bound + 2 := by
  cases value with
  | none => exact Nat.zero_le _
  | some found =>
    have size := short found rfl
    simp only [fieldIfSome, Option.toList_some, map_cons, map_nil, sum_cons,
      sum_nil]
    omega

theorem size_wraps_le (sized : Sized crypto) (kept : Kept crypto envelope) {bound : ℕ}
    (short : ∀ wrap ∈ envelope.wraps.fido, quotedSize wrap.rp ≤ bound) :
    size (write floats.print envelope.wraps.toValue) ≤ 16 * (bound + 1550) + 566 := by
  have master := @size_wrap_le crypto floats sized _ kept.master
  have pin : ∀ value ∈ envelope.wraps.pin.map PasswordWrap.toValue,
      size (write floats.print value) ≤ 236 := by
    intro value written
    obtain ⟨wrap, enrolled, rfl⟩ := Option.map_eq_some_iff.mp written
    exact size_wrap_le sized (kept.pin wrap enrolled)
  have fingerprint : ∀ value ∈ envelope.wraps.fingerprint.map fingerprintValue,
      size (write floats.print value) ≤ 52 := by
    intro value written
    obtain ⟨key, enrolled, rfl⟩ := Option.map_eq_some_iff.mp written
    obtain ⟨dek, decoded⟩ := kept.fingerprint key enrolled
    obtain ⟨bytes, decodes, sizedKey⟩ := ok_of_bind decoded
    have length : bytes.length = keyLen := by
      unfold keyFrom at sizedKey
      split at sizedKey
      · next right => exact right
      · cases sizedKey
    have keySize := quotedSize_of_decode sized (some_of_orElse decodes)
    rw [length] at keySize
    have name : quotedSize "k" = 3 := by decide
    rw [fingerprintValue, size_object (by simp)]
    simp only [map_cons, map_nil, sum_cons, sum_nil, size_string, name, keySize,
      keyLen]
    omega
  have fido : ∀ value ∈ fidoValue envelope.wraps.fido,
      size (write floats.print value) ≤ 1 + 16 * (bound + 1550) := by
    intro value written
    unfold fidoValue at written
    split at written
    · cases written
    · next nonempty =>
      cases written
      have some : envelope.wraps.fido.map FidoWrap.toValue ≠ [] := by
        simpa [List.isEmpty_iff] using nonempty
      have each := @size_fidos_le crypto floats sized _ _ kept.fido short
      have count : envelope.wraps.fido.length * (bound + 1550) ≤ 16 * (bound + 1550) :=
        Nat.mul_le_mul_right _ kept.count
      rw [size_array some]
      omega
  have keys : quotedSize "master" = 8 ∧ quotedSize "pin" = 5 ∧
      quotedSize "fingerprint" = 13 ∧ quotedSize "fido" = 6 := by decide
  have pinField := @size_fieldIfSome_le floats "pin" _ _ pin
  have fingerprintField := @size_fieldIfSome_le floats "fingerprint" _ _ fingerprint
  have fidoField := @size_fieldIfSome_le floats "fido" _ _ fido
  rw [Wraps.toValue, size_object (by simp)]
  simp only [map_append, sum_append, map_cons, map_nil, sum_cons,
    sum_nil]
  omega

/-- An envelope whose texts are short as JSON is a small file. -/
theorem size_envelope_le (sized : Sized crypto) (kept : Kept crypto envelope)
    (short : ∀ text ∈ envelope.texts, quotedSize text ≤ maxTextChars + 2) :
    (envelope.toJson floats).length ≤ maxEnvelopeBytes := by
  have id := short envelope.account.id (by simp [texts])
  have server := short envelope.account.server (by simp [texts])
  have wraps := @size_wraps_le crypto floats envelope sized kept (maxTextChars + 2)
    fun wrap mem => short wrap.rp (by
      rw [texts]
      exact mem_append_right _ (mem_map_of_mem mem))
  obtain ⟨n, c⟩ := kept.ct.quotedSize_le sized
  simp only [maxPasswordBytes, tagLen, maxTextChars] at c id server wraps
  have v : size (write floats.print (natural envelope.v)) ≤ 1 := by
    rw [kept.v]
    exact size_natural_le (by decide) (by decide)
  have stale : size (write floats.print (.bool envelope.stale)) ≤ 5 := by
    have sizes : ∀ stale, size (writeBool stale) ≤ 5 := by decide
    exact sizes envelope.stale
  have keys : quotedSize "v" = 3 ∧ quotedSize "account" = 9 ∧
      quotedSize "stale" = 7 ∧ quotedSize "ct" = 4 ∧ quotedSize "wraps" = 7 ∧
      quotedSize "id" = 4 ∧ quotedSize "server" = 8 ∧ quotedSize "n" = 3 ∧
      quotedSize "c" = 3 := by decide
  have account : size (write floats.print envelope.account.toValue) ≤ 2069 := by
    rw [Account.toValue, size_object (by simp)]
    simp only [map_cons, map_nil, sum_cons, sum_nil, size_string]
    omega
  have ct : size (write floats.print envelope.ct.toValue) ≤ 5531 := by
    rw [Sealed.toValue, size_object (by simp)]
    simp only [map_cons, map_nil, sum_cons, sum_nil, size_string, n]
    omega
  rw [length_toJson, toValue, size_object (by simp)]
  simp only [map_cons, map_nil, sum_cons, sum_nil, maxEnvelopeBytes]
  omega

/-- Whatever is written can be read back, and as it was, if and only if the file keeps within
the limit; and it does as long as the account and the relying parties are short texts as JSON
writes them, however many methods are enrolled. -/
theorem written_reads_back (sized : Sized crypto) {history : List Operation}
    (run : Run (enrolments crypto) history (some envelope)) :
    (Envelope.parse crypto floats (envelope.toJson floats) = .ok envelope ↔
      (envelope.toJson floats).length ≤ maxEnvelopeBytes) ∧
    ((∀ text ∈ envelope.texts, Json.quotedSize text ≤ maxTextChars + 2) →
      Envelope.parse crypto floats (envelope.toJson floats) = .ok envelope) := by
  have kept := run_kept sized run envelope rfl
  have parses := @Kept.parse crypto floats envelope kept
  refine ⟨⟨fun read => ?_, fun small => ?_⟩, fun short => ?_⟩
  · by_contra large
    rw [parses, if_neg large] at read
    cases read
  · rw [parses, if_pos small]
  · rw [parses, if_pos (size_envelope_le sized kept short)]

/-! ### Samples -/

section Sample

/-- A cipher that adds an empty tag, and base64. -/
def paddedCrypto : Crypto where
  encrypt _ _ plaintext _ := some (plaintext ++ List.replicate tagLen 0)
  decrypt _ _ c _ := some (c.take (c.length - tagLen))
  expand input _ := some input
  encode bytes := String.ofList (Base64.encode bytes)
  decode text := Base64.decode text.toList

theorem sized_paddedCrypto : Sized paddedCrypto where
  decodes bytes := by
    change Base64.decode (String.ofList (Base64.encode bytes)).toList = some bytes
    rw [String.toList_ofList, Base64.decode_encode]
  text decoded := by
    obtain ⟨symbols, length⟩ := Base64.length_of_decode decoded
    refine ⟨symbols, ?_⟩
    rw [← String.length_toList, length]
  tagged encrypted := by
    cases encrypted
    rw [length_append, length_replicate]

def noFloats : FloatText := ⟨fun _ => [], fun _ => 0⟩

/-- The longest relying party. -/
def longParty : String := String.ofList (List.replicate maxTextChars '😀')

/-- A credential id of one byte. -/
def credentialOf (index : ℕ) : String := paddedCrypto.encode [UInt8.ofNat index]

theorem textOk_replicate {count : ℕ} {char : Char} (short : count ≤ maxTextChars)
    (printable : isControl char = false) :
    textOk (String.ofList (List.replicate count char)) = .ok () := by
  refine if_pos ⟨?_, ?_⟩
  · rw [String.length_ofList, length_replicate]
    exact short
  · rw [String.toList_ofList, any_replicate, printable]
    simp

theorem quotedSize_replicate (count : ℕ) (char : Char) :
    count * char.utf8Size + 2 ≤ quotedSize (String.ofList (List.replicate count char)) := by
  have bytes := size_le_quotedSize (String.ofList (List.replicate count char))
  rw [String.toList_ofList, size, map_replicate, sum_replicate_nat] at bytes
  exact bytes

theorem addFido_eq {auth : Via} {credential rp salt : String} {hmac dek : Key}
    {nonce : Option Nonce} {sealed : Sealed}
    (valid : fidoFieldsOk crypto credential rp salt = .ok ())
    (reached : envelope.dek crypto auth = .ok dek)
    (room : envelope.wraps.fido.length < maxFidoWraps) {kek : Key}
    (derived : deriveKek crypto hmac "fido" = .ok kek)
    (isSealed : sealBytes crypto kek dek.1 (fidoAad envelope.account credential rp salt) nonce =
      .ok sealed) :
    envelope.addFido crypto auth credential rp salt hmac nonce =
      (.ok (), envelope.withFido (placeFido envelope.wraps.fido
        ⟨credential, rp, salt, sealed.n, sealed.c⟩)) := by
  have roomy : require (¬((envelope.wraps.fido.findIdx? (·.cred = credential)).isNone ∧
      maxFidoWraps ≤ envelope.wraps.fido.length)) .policy = .ok () :=
    if_pos fun full => absurd full.2 (not_le.mpr room)
  unfold addFido
  rw [valid, reached, roomy, derived]
  change envelope.assign (sealBytes crypto kek dek.1 _ nonce >>= fun sealed => pure _) = _
  rw [isSealed]
  rfl

/-- The salt of every credential here. -/
def sampleSalt : String := paddedCrypto.encode (List.replicate fidoSaltLen 0)

theorem fidoFieldsOk_sample (index : ℕ) {rp : String} (named : rp ≠ "")
    (valid : textOk rp = .ok ()) :
    fidoFieldsOk paddedCrypto (credentialOf index) rp sampleSalt = .ok () := by
  simp [fidoFieldsOk, credentialOf, sampleSalt, sized_paddedCrypto.decodes, orElse, require, named,
    valid, maxCredentialBytes, bind, Except.bind]

theorem credentialOf_injective {index other : ℕ} (small : index < 256) (small' : other < 256)
    (same : credentialOf index = credentialOf other) : index = other := by
  have decoded := congrArg paddedCrypto.decode same
  rw [credentialOf, credentialOf, sized_paddedCrypto.decodes, sized_paddedCrypto.decodes] at decoded
  have bytes := congrArg UInt8.toNat (List.cons.inj (Option.some.inj decoded)).1
  simp only [UInt8.toNat_ofNat'] at bytes
  omega

theorem length_of_creds {fido : List FidoWrap} {count : ℕ}
    (creds : fido.map FidoWrap.cred = (range count).map credentialOf) : fido.length = count := by
  have lengths := congrArg List.length creds
  simpa using lengths

/-- From a new envelope, this many credentials of one relying party can be enrolled. -/
theorem run_enrolFidos {rp : String} (named : rp ≠ "") (valid : textOk rp = .ok ()) {count : ℕ}
    (few : count ≤ maxFidoWraps) :
    ∃ (history : List Operation) (envelope : Envelope) (dek : Key),
      Run (enrolments paddedCrypto) history (some envelope) ∧
      envelope.dek paddedCrypto (.master (constantKey 2)) = .ok dek ∧
      envelope.account = sampleAccount ∧
      envelope.wraps.fido.map FidoWrap.cred = (List.range count).map credentialOf ∧
      ∀ wrap ∈ envelope.wraps.fido, wrap.rp = rp := by
  induction count with
  | zero =>
    have accountValid : sampleAccount.validate = .ok () := by decide +kernel
    have paramsValid : sampleParams.validate = .ok () := by decide +kernel
    obtain ⟨created, done⟩ : ∃ created, create paddedCrypto sampleAccount [1, 2]
        sampleParams (constantKey 2) (some (constantKey 1)) (some (constantNonce 0))
        (some (constantNonce 1)) = .ok created := by
      unfold create
      rw [accountValid, paramsValid]
      exact ⟨_, rfl⟩
    have run : Run (enrolments paddedCrypto) _ (some created) := .next (.start rfl) (.create done)
    unfold create at done
    rw [accountValid, paramsValid] at done
    cases done
    refine ⟨_, _, constantKey 1, run, ?_, rfl, rfl, nofun⟩
    change (openSealed paddedCrypto (constantKey 2) (paddedCrypto.encode (constantNonce 1).1)
      (paddedCrypto.encode ((constantKey 1).1 ++ List.replicate tagLen 0))
      (wrapAad sampleAccount "master" sampleParams) >>= keyFrom) = _
    unfold openSealed
    rw [sized_paddedCrypto.decodes, sized_paddedCrypto.decodes]
    rfl
  | succ count ih =>
    obtain ⟨history, envelope, dek, run, reached, account, creds, parties⟩ := ih (by omega)
    have length := length_of_creds creds
    have added := @addFido_eq paddedCrypto envelope (.master (constantKey 2))
      (credentialOf count) rp sampleSalt (constantKey 3) dek (some (constantNonce 3)) _
      (fidoFieldsOk_sample count named valid) reached (by omega) (constantKey 3) rfl rfl
    refine ⟨_, _, dek, .next run (@Succeeds.change _ _ _ (.addFido (.master (constantKey 2))
      (credentialOf count) rp sampleSalt (constantKey 3) (some (constantNonce 3))) added),
      reached, account, ?_, ?_⟩
    · change (placeFido envelope.wraps.fido _).map FidoWrap.cred = _
      have fresh : credentialOf count ∉ (List.range count).map credentialOf := by
        intro known
        obtain ⟨index, earlier, same⟩ := mem_map.mp known
        have below := mem_range.mp earlier
        simp only [maxFidoWraps] at few
        exact below.ne (credentialOf_injective (by omega) (by omega) same)
      rw [creds_placeFido, creds, if_neg fresh, range_succ, map_append]
      rfl
    · intro wrap mem
      rcases mem_placeFido mem with before | rfl
      · exact parties wrap before
      · rfl

/-- Sixteen credentials of a relying party with a short name read back. -/
theorem written_reads_back_sixteen :
    ∃ (history : List Operation) (envelope : Envelope),
      Run (enrolments paddedCrypto) history (some envelope) ∧
      envelope.wraps.fido.length = maxFidoWraps ∧
      Envelope.parse paddedCrypto noFloats (envelope.toJson noFloats) = .ok envelope := by
  obtain ⟨history, envelope, dek, run, -, account, creds, parties⟩ :=
    @run_enrolFidos "pam://host" (by decide) (by decide +kernel) maxFidoWraps le_rfl
  have length := length_of_creds creds
  refine ⟨history, envelope, run, length, (written_reads_back sized_paddedCrypto run).2 ?_⟩
  intro text mem
  rw [texts, account] at mem
  rcases mem_append.mp mem with named | party
  · rcases mem_cons.mp named with rfl | server
    · decide
    · rw [mem_singleton.mp server]
      decide
  · obtain ⟨wrap, enrolled, rfl⟩ := mem_map.mp party
    rw [parties wrap enrolled]
    decide

theorem size_fidos_ge {fido : List FidoWrap} {bound : ℕ}
    (long : ∀ wrap ∈ fido, bound ≤ quotedSize wrap.rp) :
    fido.length * bound ≤ ((fido.map FidoWrap.toValue).map fun value =>
      size (write floats.print value) + 1).sum := by
  induction fido with
  | nil => exact (Nat.zero_mul bound).le
  | cons wrap rest ih =>
    have rp := long wrap mem_cons_self
    have later := ih fun other mem => long other (mem_cons_of_mem _ mem)
    have first : quotedSize wrap.rp ≤ size (write floats.print wrap.toValue) := by
      rw [FidoWrap.toValue, size_object (by simp)]
      simp only [map_cons, sum_cons, size_string]
      omega
    rw [map_cons, map_cons, sum_cons, length_cons, Nat.succ_mul]
    omega

/-- A file is larger than the relying parties in it. -/
theorem size_envelope_ge {bound : ℕ} (some : envelope.wraps.fido ≠ [])
    (long : ∀ wrap ∈ envelope.wraps.fido, bound ≤ quotedSize wrap.rp) :
    envelope.wraps.fido.length * bound < (envelope.toJson floats).length := by
  have nonempty : envelope.wraps.fido.map FidoWrap.toValue ≠ [] := by simpa using some
  have parties := @size_fidos_ge floats _ _ long
  have listed : fidoValue envelope.wraps.fido =
      Option.some (.array (envelope.wraps.fido.map FidoWrap.toValue)) :=
    if_neg (by simpa [List.isEmpty_iff] using some)
  rw [length_toJson, toValue, size_object (by simp)]
  simp only [map_cons, map_nil, sum_cons, sum_nil]
  have wraps : envelope.wraps.fido.length * bound <
      size (write floats.print envelope.wraps.toValue) := by
    rw [Wraps.toValue, size_object (by simp), listed]
    simp only [map_append, sum_append, fieldIfSome, Option.toList_some, map_cons,
      map_nil, sum_cons, sum_nil, size_array nonempty]
    omega
  omega

/-- Sixteen credentials of the longest relying party there may be: every enrolment succeeds,
and the file they leave is refused. -/
theorem enrolled_file_refused :
    ∃ (history : List Operation) (envelope : Envelope),
      Run (enrolments paddedCrypto) history (some envelope) ∧
      Envelope.parse paddedCrypto noFloats (envelope.toJson noFloats) = .error .policy := by
  have named : longParty ≠ "" := by
    intro empty
    have lengths := congrArg String.length empty
    rw [longParty, String.length_ofList, length_replicate] at lengths
    cases lengths
  obtain ⟨history, envelope, dek, run, -, -, creds, parties⟩ :=
    @run_enrolFidos longParty named (textOk_replicate le_rfl (by decide)) maxFidoWraps le_rfl
  have length := length_of_creds creds
  have nonempty : envelope.wraps.fido ≠ [] := by
    intro nil
    rw [nil] at length
    cases length
  have long : ∀ wrap ∈ envelope.wraps.fido, 4098 ≤ quotedSize wrap.rp := by
    intro wrap mem
    have four : '😀'.utf8Size = 4 := by decide
    have bytes := quotedSize_replicate maxTextChars '😀'
    rw [four] at bytes
    rw [parties wrap mem]
    exact bytes
  have large := @size_envelope_ge noFloats envelope 4098 nonempty long
  rw [length] at large
  simp only [maxFidoWraps] at large
  refine ⟨history, envelope, run, ?_⟩
  rw [(run_kept sized_paddedCrypto run envelope rfl).parse, if_neg]
  simp only [maxEnvelopeBytes]
  omega

end Sample

end QsBitwarden.UnlockKey
