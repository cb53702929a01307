import QsBitwarden.UnlockKey.Written

/-! Owns what ties the parts of an envelope together: the associated data of each sealed value
names what the value is bound to, and a change reaches the data key but does not try it on the
password. It does not own the envelopes that a run of operations leaves. -/

namespace QsBitwarden.UnlockKey

open Lib List Option Envelope

variable {crypto : Crypto}

/-! ### Associated data -/

inductive Purpose
  | master
  | pin
  deriving DecidableEq, Repr

def Purpose.text : Purpose → String
  | .master => "master"
  | .pin => "pin"

/-- A sealed value of an envelope, by what it is bound to. -/
inductive Binding
  | password (account : Account)
  | wrap (account : Account) (purpose : Purpose) (kdf : Argon2Params)
  | fido (account : Account) (cred rp salt : String)
  deriving DecidableEq, Repr

namespace Binding

def aad : Binding → Bytes
  | .password account => ctAad account
  | .wrap account purpose kdf => wrapAad account purpose.text kdf
  | .fido account cred rp salt => fidoAad account cred rp salt

variable (crypto) in
/-- The fields are such as an envelope may hold. -/
def Held : Binding → Prop
  | .password account => account.validate = .ok ()
  | .wrap account _ kdf => account.validate = .ok () ∧ kdf.validate = .ok ()
  | .fido account cred rp salt =>
    account.validate = .ok () ∧ fidoFieldsOk crypto cred rp salt = .ok ()

/-- The parts that `aad` joins. -/
def parts : Binding → List Bytes
  | .password account => [utf8 "password", utf8 account.id, utf8 account.server]
  | .wrap account purpose kdf =>
    [utf8 "wrap", utf8 purpose.text, utf8 account.id, utf8 account.server] ++ kdf.bind
  | .fido account cred rp salt =>
    [utf8 "wrap", utf8 "fido", utf8 account.id, utf8 account.server, utf8 cred, utf8 rp, utf8 salt]

theorem aad_eq (binding : Binding) : binding.aad = UnlockKey.aad binding.parts := by
  cases binding <;> rfl

end Binding

theorem putU32_injOn {value other : ℕ} (small : value < 4294967296) (small' : other < 4294967296)
    (same : putU32 value = putU32 other) : value = other := by
  have read := (@readU32_eq_some_iff (putU32 value ++ []) [] value).mpr ⟨small, rfl⟩
  have read' := (@readU32_eq_some_iff (putU32 other ++ []) [] other).mpr ⟨small', rfl⟩
  rw [same, read'] at read
  exact (Prod.mk.inj (Option.some.inj read)).1.symm

/-- Length-prefixed parts are read off one after the other. -/
theorem parts_injOn {parts parts' : List Bytes} (short : ∀ part ∈ parts, part.length ≤ u32Max)
    (short' : ∀ part ∈ parts', part.length ≤ u32Max) (same : aad parts = aad parts') :
    parts = parts' := by
  have framed := append_cancel_left same
  clear same
  induction parts generalizing parts' with
  | nil =>
    cases parts' with
    | nil => rfl
    | cons part rest =>
      have lengths := congrArg List.length framed
      simp at lengths
      omega
  | cons part rest ih =>
    cases parts' with
    | nil =>
      have lengths := congrArg List.length framed
      simp at lengths
    | cons part' rest' =>
      have small := short part mem_cons_self
      have small' := short' part' mem_cons_self
      rw [flatMap_cons, flatMap_cons, append_assoc, append_assoc,
        min_eq_left small, min_eq_left small'] at framed
      obtain ⟨sizes, bodies⟩ := append_inj framed rfl
      unfold u32Max at small small'
      have length := putU32_injOn (by omega) (by omega) sizes
      obtain ⟨first, others⟩ := append_inj bodies length
      rw [first, ih (forall_mem_of_forall_mem_cons short)
        (forall_mem_of_forall_mem_cons short') others]

theorem utf8_injective : Function.Injective utf8 := by
  intro text other same
  have read := fromUTF8_utf8 text
  rw [same, fromUTF8_utf8] at read
  exact (Option.some.inj read).symm

theorem length_utf8_le (text : String) : (utf8 text).length ≤ 4 * text.length := by
  have bounded : ∀ chars : List Char, Json.size chars ≤ 4 * chars.length := by
    intro chars
    induction chars with
    | nil => exact le_rfl
    | cons char rest ih =>
      have one := char.utf8Size_le_four
      rw [Json.size_cons, length_cons]
      omega
  have size : (utf8 text).length = Json.size text.toList := by
    rw [utf8, toUTF8_toList_length, Json.size_eq_utf8Len, ← String.utf8ByteSize_ofList,
      String.ofList_toList]
  rw [size, ← String.length_toList]
  exact bounded text.toList

theorem short_of_length {text : String} (length : text.length ≤ maxTextChars) :
    (utf8 text).length ≤ u32Max := by
  have bytes := length_utf8_le text
  simp only [maxTextChars, u32Max] at length ⊢
  omega

theorem short_of_textOk {text : String} (valid : textOk text = .ok ()) :
    (utf8 text).length ≤ u32Max :=
  short_of_length (of_require valid).1

theorem toString_injective : Function.Injective (toString : ℕ → String) := by
  intro value other same
  have texts := congrArg String.toList same
  rw [Nat.toString_eq_ofList_toDigits, Nat.toString_eq_ofList_toDigits, String.toList_ofList,
    String.toList_ofList] at texts
  have values := congrArg (fun digits => Nat.ofDigitChars 10 digits 0) texts
  rwa [Nat.ofDigitChars_ten_toDigits, Nat.ofDigitChars_ten_toDigits] at values

theorem short_of_lt {value : ℕ} (small : value < 10 ^ 10) :
    (utf8 (toString value)).length ≤ u32Max := by
  have digits := (@Nat.length_toDigits_le_iff 10 value 10 (by decide) (by decide)).mpr small
  rw [Nat.toString_eq_ofList_toDigits]
  apply short_of_length
  rw [String.length_ofList]
  exact digits.trans (by decide)

theorem Account.short {account : Account} (valid : account.validate = .ok ()) :
    (utf8 account.id).length ≤ u32Max ∧ (utf8 account.server).length ≤ u32Max := by
  obtain ⟨_, _, texts⟩ := ok_of_bind valid
  obtain ⟨_, id, server⟩ := ok_of_bind texts
  exact ⟨short_of_textOk id, short_of_textOk server⟩

theorem Argon2Params.short {params : Argon2Params} (valid : params.validate = .ok ()) :
    ∀ part ∈ params.bind, part.length ≤ u32Max := by
  obtain ⟨_, alg, policy⟩ := ok_of_bind valid
  obtain ⟨salted, priced⟩ := of_require policy
  simp only [Argon2Params.saltOk, Argon2Params.costOk, Bool.and_eq_true, decide_eq_true_eq]
    at salted priced
  simp only [argon2SaltMaxChars, argon2MaxMemoryKib, argon2MaxIterations, argon2MaxParallelism]
    at salted priced
  have salt : (utf8 params.salt).length ≤ u32Max := short_of_length (salted.1.2.trans (by decide))
  have algorithm : (utf8 params.alg).length ≤ u32Max := by
    rw [of_require alg]
    exact short_of_length (by decide)
  simp only [Argon2Params.bind, forall_mem_cons, not_mem_nil, false_implies,
    implies_true, and_true]
  exact ⟨algorithm, salt, short_of_lt (by omega), short_of_lt (by omega), short_of_lt (by omega)⟩

variable (crypto) in
/-- Base64 text is no more than four times as long as what it stands for. -/
def Compact : Prop :=
  ∀ text bytes, crypto.decode text = some bytes → (utf8 text).length ≤ 4 * bytes.length + 4

theorem short_of_fidoFieldsOk (compact : Compact crypto) {cred rp salt : String}
    (valid : fidoFieldsOk crypto cred rp salt = .ok ()) :
    (utf8 cred).length ≤ u32Max ∧ (utf8 rp).length ≤ u32Max ∧ (utf8 salt).length ≤ u32Max := by
  obtain ⟨credential, decoded, fields⟩ := ok_of_bind valid
  obtain ⟨_, sized, fields⟩ := ok_of_bind fields
  obtain ⟨_, _, fields⟩ := ok_of_bind fields
  obtain ⟨_, party, fields⟩ := ok_of_bind fields
  obtain ⟨salted, saltDecoded, saltSized⟩ := ok_of_bind fields
  have credLength := compact cred credential (some_of_orElse decoded)
  have saltLength := compact salt salted (some_of_orElse saltDecoded)
  have small := (of_require sized).2
  have exactly := of_require saltSized
  simp only [maxCredentialBytes, fidoSaltLen] at small exactly
  refine ⟨?_, short_of_textOk party, ?_⟩ <;> unfold u32Max <;> omega

theorem Binding.short (compact : Compact crypto) {binding : Binding}
    (held : binding.Held crypto) : ∀ part ∈ binding.parts, part.length ≤ u32Max := by
  have label : ∀ text : String, text.length ≤ 8 → (utf8 text).length ≤ u32Max :=
    fun text short => short_of_length (short.trans (by decide))
  cases binding with
  | password account => simp [Binding.parts, label "password" (by decide), Account.short held]
  | wrap account purpose kdf =>
    have method := label purpose.text (by cases purpose <;> decide)
    intro part mem
    rcases mem_append.mp mem with named | bound
    · have named : ∀ part ∈ [utf8 "wrap", utf8 purpose.text, utf8 account.id,
          utf8 account.server], part.length ≤ u32Max := by
        simp [label "wrap" (by decide), method, Account.short held.1]
      exact named part ‹_›
    · exact Argon2Params.short held.2 part bound
  | fido account cred rp salt =>
    simp [Binding.parts, label "wrap" (by decide), label "fido" (by decide),
      Account.short held.1, short_of_fidoFieldsOk compact held.2]

theorem Purpose.text_injective : Function.Injective Purpose.text := by
  intro purpose other same
  cases purpose <;> cases other <;> first | rfl | exact absurd same (by decide)

theorem Binding.parts_injective : Function.Injective Binding.parts := by
  intro binding other same
  rcases binding with ⟨id, server⟩ | ⟨⟨id, server⟩, purpose, kdf⟩ | ⟨⟨id, server⟩, _, _, _⟩ <;>
  rcases other with ⟨id', server'⟩ | ⟨⟨id', server'⟩, purpose', _⟩ | ⟨⟨id', server'⟩, _, _, _⟩ <;>
    simp only [parts, Argon2Params.bind, cons_append, nil_append, List.cons.injEq,
      utf8_injective.eq_iff, toString_injective.eq_iff, Purpose.text_injective.eq_iff,
      String.reduceEq, reduceCtorEq, and_true, and_false, true_and] at same
  · obtain ⟨rfl, rfl⟩ := same
    rfl
  · obtain ⟨rfl, rfl, rfl, settings⟩ := same
    exact congrArg _ (Argon2Params.mk.injEq .. ▸ settings)
  · obtain ⟨rfl, rfl, rfl, rfl, rfl⟩ := same
    rfl

/-- The associated data is injective on what an envelope may hold. -/
theorem Binding.aad_injOn (compact : Compact crypto) {binding other : Binding}
    (held : binding.Held crypto) (held' : other.Held crypto) (same : binding.aad = other.aad) :
    binding = other := by
  rw [aad_eq, aad_eq] at same
  exact parts_injective (parts_injOn (binding.short compact held) (other.short compact held') same)

/-- A sealed value opens where the account, the method and every bound field are those it was
sealed with and under the key it was sealed with, whichever envelope it stands in, and nowhere
else. -/
theorem sealed_opens_where_bound (ideal : Ideal crypto) (compact : Compact crypto)
    {binding other : Binding} (held : binding.Held crypto) (held' : other.Held crypto) :
    (binding.aad = other.aad ↔ binding = other) ∧
      ∀ {key key' : Key} {plaintext opened : Bytes} {nonce : Option Nonce} {sealed : Sealed},
        sealBytes crypto key plaintext binding.aad nonce = .ok sealed →
        (openSealed crypto key' sealed.n sealed.c other.aad = .ok opened ↔
          other = binding ∧ key' = key ∧ opened = plaintext) := by
  refine ⟨⟨binding.aad_injOn compact held held', congrArg Binding.aad⟩, ?_⟩
  intro key key' plaintext opened nonce sealed done
  obtain ⟨drawn, bytes, encrypted, n, c⟩ := seals_of_sealBytes done
  have opening : openSealed crypto key' sealed.n sealed.c other.aad =
      orElse .wrongKey (crypto.decrypt key' drawn bytes other.aad) := by
    have sized : drawn.1.length = nonceLen := drawn.2
    rw [n, c, openSealed, ideal.decodes, ideal.decodes]
    simp only [orElse, bind, Except.bind, dif_pos sized]
  rw [opening]
  constructor
  · intro accepted
    have decrypted := some_of_orElse accepted
    obtain ⟨rfl, -, same⟩ := ideal.only encrypted decrypted
    rw [same, ideal.opens encrypted] at decrypted
    exact ⟨other.aad_injOn compact held' held same, rfl, (Option.some.inj decrypted).symm⟩
  · rintro ⟨rfl, rfl, rfl⟩
    rw [ideal.opens encrypted]
    rfl

theorem compact_labelledCrypto : Compact labelledCrypto := by
  intro text bytes decoded
  cases decoded
  have bound := length_utf8_le text
  rw [length_map, String.length_toList]
  omega

/-- A PIN wrap is refused in the place of the master wrap, even under its own key. -/
theorem sealed_opens_where_bound_purposes :
    ¬ ∃ opened, openSealed labelledCrypto (constantKey 2)
      (labelledCrypto.encode (constantNonce 0).1)
      (labelledCrypto.encode ((constantKey 2).1 ++ (constantNonce 0).1 ++
        framed (wrapAad sampleAccount "pin" sampleParams) ++ (constantKey 1).1))
      (wrapAad sampleAccount "master" sampleParams) = .ok opened := by
  intro ⟨opened, accepted⟩
  have valid : sampleAccount.validate = .ok () ∧ sampleParams.validate = .ok () := by decide +kernel
  have sealed : sealBytes labelledCrypto (constantKey 2) (constantKey 1).1
      (wrapAad sampleAccount "pin" sampleParams) (some (constantNonce 0)) = .ok ⟨_, _⟩ := rfl
  have moved := (@sealed_opens_where_bound labelledCrypto ideal_labelledCrypto
    compact_labelledCrypto (.wrap sampleAccount .pin sampleParams)
    (.wrap sampleAccount .master sampleParams) valid valid).2 sealed |>.mp accepted
  cases moved.1

/-! ### One wrap in two envelopes -/

/-- The envelope of the sample account for one master key and a data key. -/
def sampleEnvelope (dek : Key) : Envelope :=
  let text (key : Key) (nonce : Nonce) (plaintext aad : Bytes) :=
    labelledCrypto.encode (key.1 ++ nonce.1 ++ framed aad ++ plaintext)
  ⟨version, sampleAccount, false,
    ⟨labelledCrypto.encode (constantNonce 0).1,
      text dek (constantNonce 0) [1, 2] (ctAad sampleAccount)⟩,
    ⟨⟨sampleParams, labelledCrypto.encode (constantNonce 1).1,
      text (constantKey 2) (constantNonce 1) dek.1 (wrapAad sampleAccount "master" sampleParams)⟩,
      none, none, []⟩⟩

theorem create_sampleEnvelope (dek : Key) :
    create labelledCrypto sampleAccount [1, 2] sampleParams (constantKey 2) (some dek)
      (some (constantNonce 0)) (some (constantNonce 1)) = .ok (sampleEnvelope dek) := by
  have valid : sampleParams.validate = .ok () := by decide +kernel
  have accountValid : sampleAccount.validate = .ok () := by decide +kernel
  unfold create
  rw [accountValid, valid]
  rfl

def Envelope.withMaster (envelope : Envelope) (master : PasswordWrap) : Envelope :=
  { envelope with wraps := { envelope.wraps with master := master } }

variable {envelope : Envelope}

theorem dek_master (ideal : Ideal crypto) {input dek : Key}
    {nonce : Option Nonce} (wraps : passwordWrap crypto envelope.account "master"
      envelope.wraps.master.kdf input dek nonce = .ok envelope.wraps.master) :
    envelope.dek crypto (.master input) = .ok dek :=
  (unwrap ideal (wrapped_of_passwordWrap wraps) input).trans (if_pos rfl)

theorem dek_pin (ideal : Ideal crypto) {envelope : Envelope} {wrap : PasswordWrap}
    {kdf : Argon2Params} {input dek : Key} {nonce : Option Nonce}
    (wraps : passwordWrap crypto envelope.account "pin" kdf input dek nonce = .ok wrap) :
    (envelope.withPin (some wrap)).dek crypto (.pin input) = .ok dek :=
  (unwrap ideal (wrapped_of_passwordWrap wraps) input).trans (if_pos rfl)

theorem dek_fingerprint (ideal : Ideal crypto) (envelope : Envelope) (dek : Key) :
    (envelope.withFingerprint (some (crypto.encode dek.1))).dek crypto .fingerprint = .ok dek := by
  change (orElse .malformed (crypto.decode (crypto.encode dek.1)) >>= keyFrom) = _
  rw [ideal.decodes]
  exact keyFrom_bytes dek

variable {key : Key}

theorem sealedOk_of_seals (ideal : Ideal crypto) {plaintext aad : Bytes}
    {n c : String} (seals : Seals crypto key plaintext aad n c) : sealedOk crypto n c = .ok () := by
  obtain ⟨nonce, sealed, _, rfl, rfl⟩ := seals
  rw [sealedOk, ideal.decodes, ideal.decodes]
  exact if_pos nonce.2

theorem wraps_sampleEnvelope (dek : Key) :
    passwordWrap labelledCrypto sampleAccount "master" sampleParams (constantKey 2) dek
      (some (constantNonce 1)) = .ok (sampleEnvelope dek).wraps.master := rfl

/-- Nothing names the envelope itself: two envelopes of one account, made with the same settings
and key, take each other's master wrap. -/
theorem master_wrap_moves :
    (∀ dek, Envelope.create labelledCrypto sampleAccount [1, 2] sampleParams (constantKey 2)
      (some dek) (some (constantNonce 0)) (some (constantNonce 1)) = .ok (sampleEnvelope dek)) ∧
    (sampleEnvelope (constantKey 1)).dek labelledCrypto (.master (constantKey 2)) =
      .ok (constantKey 1) ∧
    ((sampleEnvelope (constantKey 1)).withMaster
      (sampleEnvelope (constantKey 4)).wraps.master).dek labelledCrypto
        (.master (constantKey 2)) = .ok (constantKey 4) := by
  refine ⟨create_sampleEnvelope, ?_, ?_⟩
  · exact dek_master ideal_labelledCrypto (wraps_sampleEnvelope (constantKey 1))
  · exact dek_master ideal_labelledCrypto (wraps_sampleEnvelope (constantKey 4))

/-! ### Changes -/

/-- What authorizes a change, where it needs the data key. -/
def Change.auth : Change → Option Via
  | .addPin auth _ _ _ => some auth
  | .addFingerprint auth => some auth
  | .addFido auth _ _ _ _ _ => some auth
  | .remove _ => none
  | .markStale => none
  | .rotate auth _ _ _ _ _ => some auth

variable {auth : Via}

/-- A change only reaches the data key. -/
theorem dek_of_change {after : Envelope} {change : Change} (authorized : change.auth = some auth)
    (done : envelope.change crypto change = (.ok (), after)) :
    ∃ dek, envelope.dek crypto auth = .ok dek := by
  cases changed_of_change done with
  | addPin _ reached _ | addFingerprint reached | addFido _ reached _ _ _
  | rotate _ _ reached _ _ =>
    cases authorized
    exact ⟨_, reached⟩
  | removePin | removeFingerprint | removeFido _ | markStale => cases authorized

/-! ### What an envelope stores -/

section Stores

variable (crypto)

/-- Whatever opens was sealed. -/
def Tidy : Prop :=
  ∀ {key nonce c aad opened}, crypto.decrypt key nonce c aad = some opened →
    crypto.encrypt key nonce opened aad = some c

/-- The two texts are a seal of the plaintext under the key. -/
def Stores (key : Key) (plaintext aad : Bytes) (n c : String) : Prop :=
  ∃ (nonce : Nonce) (sealed : Bytes), crypto.decode n = some nonce.1 ∧
    crypto.decode c = some sealed ∧ crypto.encrypt key nonce plaintext aad = some sealed

/-- The key in the wrap that an authorization names, sealed under the key derived from its input,
or as it is for the fingerprint. -/
def Envelope.Holds (envelope : Envelope) (key : Key) : Via → Prop
  | .master input => ∃ kek, deriveKek crypto input "master" = .ok kek ∧
      Stores crypto kek key.1 (wrapAad envelope.account "master" envelope.wraps.master.kdf)
        envelope.wraps.master.n envelope.wraps.master.c
  | .pin input => ∃ wrap, envelope.wraps.pin = some wrap ∧
      ∃ kek, deriveKek crypto input "pin" = .ok kek ∧
        Stores crypto kek key.1 (wrapAad envelope.account "pin" wrap.kdf) wrap.n wrap.c
  | .fingerprint => ∃ text, envelope.wraps.fingerprint = some text ∧
      crypto.decode text = some key.1
  | .fido credential hmac => ∃ wrap, envelope.wraps.fido.find? (·.cred = credential) = some wrap ∧
      ∃ kek, deriveKek crypto hmac "fido" = .ok kek ∧
        Stores crypto kek key.1 (fidoAad envelope.account wrap.cred wrap.rp wrap.salt)
          wrap.n wrap.c

/-- The wrap that an authorization names holds no other key than the one the password is sealed
under. -/
def Envelope.HoldsOwnKey (envelope : Envelope) (auth : Via) : Prop :=
  ∀ key, envelope.Holds crypto key auth → ∃ password,
    Stores crypto key password (ctAad envelope.account) envelope.ct.n envelope.ct.c

end Stores

theorem openSealed_iff (ideal : Ideal crypto) (tidy : Tidy crypto)
    {plaintext aad : Bytes} {n c : String} :
    openSealed crypto key n c aad = .ok plaintext ↔ Stores crypto key plaintext aad n c := by
  constructor
  · intro opened
    obtain ⟨nonce, readN, rest⟩ := ok_of_bind opened
    obtain ⟨sealed, readC, rest⟩ := ok_of_bind rest
    split_ifs at rest with sized
    exact ⟨⟨nonce, sized⟩, sealed, some_of_orElse readN, some_of_orElse readC,
      tidy (some_of_orElse rest)⟩
  · rintro ⟨nonce, sealed, readN, readC, encrypted⟩
    unfold openSealed
    rw [readN, readC]
    refine (dif_pos nonce.2).trans ?_
    rw [ideal.opens encrypted]
    rfl

theorem keyFrom_iff {bytes : Bytes} : keyFrom bytes = .ok key ↔ bytes = key.1 := by
  unfold keyFrom
  constructor
  · intro read
    split_ifs at read
    rw [← Except.ok.inj read]
  · rintro rfl
    exact dif_pos key.2

theorem unwrap_iff (ideal : Ideal crypto) (tidy : Tidy crypto) {input key : Key}
    {purpose : String} {aad : Bytes} {n c : String} :
    (do
      let kek ← deriveKek crypto input purpose
      keyFrom (← openSealed crypto kek n c aad)) = .ok key ↔
      ∃ kek, deriveKek crypto input purpose = .ok kek ∧ Stores crypto kek key.1 aad n c := by
  constructor
  · intro reached
    obtain ⟨kek, derived, rest⟩ := ok_of_bind reached
    obtain ⟨bytes, opened, read⟩ := ok_of_bind rest
    rw [keyFrom_iff.mp read] at opened
    exact ⟨kek, derived, (openSealed_iff ideal tidy).mp opened⟩
  · rintro ⟨kek, derived, stores⟩
    rw [derived]
    change (openSealed crypto kek n c aad >>= keyFrom) = _
    rw [(openSealed_iff ideal tidy).mpr stores]
    exact keyFrom_bytes key

theorem orElse_bind_iff {α β : Type} {error : Error} {found : Option α}
    {next : α → Except Error β} {result : β} :
    (orElse error found >>= next) = .ok result ↔
      ∃ value, found = some value ∧ next value = .ok result := by
  cases found <;> simp [orElse, bind, Except.bind]

theorem dek_iff (ideal : Ideal crypto) (tidy : Tidy crypto) :
    envelope.dek crypto auth = .ok key ↔ envelope.Holds crypto key auth := by
  have wrapped {input : Key} {purpose : String} {aad : Bytes} {n c : String} :=
    @unwrap_iff crypto ideal tidy input key purpose aad n c
  cases auth with
  | master input => exact wrapped
  | pin input =>
    exact orElse_bind_iff.trans (exists_congr fun _ => and_congr_right fun _ => wrapped)
  | fingerprint =>
    refine orElse_bind_iff.trans (exists_congr fun text => and_congr_right fun _ => ?_)
    refine orElse_bind_iff.trans ?_
    simp only [keyFrom_iff, exists_eq_right]
  | fido credential hmac =>
    exact orElse_bind_iff.trans (exists_congr fun _ => and_congr_right fun _ => wrapped)

theorem openVia_of_dek {dek : Key} (reached : envelope.dek crypto auth = .ok dek) :
    envelope.openVia crypto auth =
      openSealed crypto dek envelope.ct.n envelope.ct.c (ctAad envelope.account) := by
  unfold openVia
  rw [reached]
  rfl

/-- A change through an authorization needs it to open the password exactly where the wrap it
names holds the key of the password or none; along operations alone it always does. -/
theorem changes_need_opening_key (ideal : Ideal crypto) (tidy : Tidy crypto)
    (envelope : Envelope) (auth : Via) :
    ((∀ change after, change.auth = some auth →
        envelope.change crypto change = (.ok (), after) →
        ∃ password, envelope.openVia crypto auth = .ok password) ↔
      envelope.HoldsOwnKey crypto auth) ∧
    ∀ history, Run (enrolments crypto) history (some envelope) →
      envelope.HoldsOwnKey crypto auth := by
  refine ⟨⟨?_, ?_⟩, ?_⟩
  · intro needs key held
    have reached := (dek_iff ideal tidy).mpr held
    have enrols : envelope.change crypto (.addFingerprint auth) =
        (.ok (), envelope.withFingerprint (some (crypto.encode key.1))) := by
      simp only [change, addFingerprint]
      rw [reached]
      rfl
    obtain ⟨password, opened⟩ := needs _ _ rfl enrols
    rw [openVia_of_dek reached] at opened
    exact ⟨password, (openSealed_iff ideal tidy).mp opened⟩
  · intro own change after authorized done
    obtain ⟨dek, reached⟩ := dek_of_change authorized done
    obtain ⟨password, stored⟩ := own dek ((dek_iff ideal tidy).mp reached)
    rw [openVia_of_dek reached]
    exact ⟨password, (openSealed_iff ideal tidy).mpr stored⟩
  · intro history run key held
    obtain ⟨known, password, masterKey, enrolled⟩ := run_enrolled ideal run envelope rfl
    rw [enrolled.dek_of_auth ideal ((dek_iff ideal tidy).mpr held)]
    refine ⟨password, (openSealed_iff ideal tidy).mp ?_⟩
    rw [openSealed_of_seals ideal enrolled.ct, if_pos rfl]

theorem tidy_labelledCrypto : Tidy labelledCrypto := by
  intro key nonce c aad opened decrypted
  by_cases starts : key.1 ++ nonce.1 ++ framed aad <+: c
  · obtain ⟨rest, rfl⟩ := starts
    have whole : some _ = some opened := (if_pos (prefix_append _ _)).symm.trans decrypted
    rw [← Option.some.inj whole, drop_left]
    rfl
  · have refused : labelledCrypto.decrypt key nonce c aad = none := if_neg starts
    rw [refused] at decrypted
    cases decrypted

theorem changes_need_opening_key_sample :
    ∃ envelope, Run (enrolments labelledCrypto) sampleHistory (some envelope) ∧
      envelope.HoldsOwnKey labelledCrypto (.pin (constantKey 3)) := by
  obtain ⟨envelope, run⟩ := run_sampleHistory
  exact ⟨envelope, run, (changes_need_opening_key ideal_labelledCrypto tidy_labelledCrypto
    envelope _).2 _ run⟩

/-- An envelope whose fingerprint key is not the one its password is sealed under. -/
def damagedEnvelope : Envelope :=
  (sampleEnvelope (constantKey 1)).withFingerprint (some (labelledCrypto.encode (constantKey 9).1))

/-- It is read from its file and enrols a PIN, which opens nothing. -/
theorem damaged_fingerprint_enrols :
    Envelope.parse labelledCrypto noFloats (damagedEnvelope.toJson noFloats) =
      .ok damagedEnvelope ∧
    damagedEnvelope.openVia labelledCrypto .fingerprint = .error .wrongKey ∧
    ∃ after, damagedEnvelope.addPin labelledCrypto .fingerprint sampleParams (constantKey 3)
        (some (constantNonce 2)) = (.ok (), after) ∧
      after.openVia labelledCrypto (.pin (constantKey 3)) = .error .wrongKey := by
  have isSealed : Seals labelledCrypto (constantKey 1) [1, 2] (ctAad sampleAccount)
      damagedEnvelope.ct.n damagedEnvelope.ct.c := ⟨constantNonce 0, _, rfl, rfl, rfl⟩
  have refused : openSealed labelledCrypto (constantKey 9) damagedEnvelope.ct.n
      damagedEnvelope.ct.c (ctAad sampleAccount) = .error .wrongKey := by
    rw [openSealed_of_seals ideal_labelledCrypto isSealed, if_neg (by decide)]
  have reached : damagedEnvelope.dek labelledCrypto .fingerprint = .ok (constantKey 9) :=
    dek_fingerprint ideal_labelledCrypto (sampleEnvelope (constantKey 1)) (constantKey 9)
  refine ⟨?_, (openVia_of_dek reached).trans refused, ?_⟩
  · have read : fromSlice noFloats (damagedEnvelope.toJson noFloats) =
        some damagedEnvelope :=
      fromSlice_toJson (by decide) (fits_of_validate (by decide +kernel))
        nofun
    have text : ∀ bytes, Json.writeString (labelledCrypto.encode bytes) = '"' ::
        ((bytes.map fun byte => Char.ofNat byte.toNat).flatMap Json.escape ++ ['"']) := by
      intro bytes
      simp only [Json.writeString, labelledCrypto, String.toList_ofList]
    have size : (damagedEnvelope.toJson noFloats).length ≤ maxEnvelopeBytes := by
      rw [length_toJson]
      simp only [toValue, PasswordWrap.toValue, Wraps.toValue, Sealed.toValue,
        damagedEnvelope, withFingerprint, sampleEnvelope, fingerprintValue,
        map_some, fieldIfSome, toList_some, map_cons, map_nil,
        cons_append, nil_append, append_assoc, Json.write, Json.writeFields, text]
      decide +kernel
    have short : require ((damagedEnvelope.toJson noFloats).length ≤ maxEnvelopeBytes) .policy =
        .ok () := if_pos size
    have valid : damagedEnvelope.validate labelledCrypto = .ok () := by
      have wrapped : Seals labelledCrypto (constantKey 2) (constantKey 1).1
          (wrapAad sampleAccount "master" sampleParams) damagedEnvelope.wraps.master.n
          damagedEnvelope.wraps.master.c := ⟨constantNonce 1, _, rfl, rfl, rfl⟩
      have accountValid : damagedEnvelope.account.validate = .ok () := by decide +kernel
      have kdfValid : damagedEnvelope.wraps.master.kdf.validate = .ok () := by decide +kernel
      have key : ifEnrolled (decodeKey labelledCrypto) damagedEnvelope.wraps.fingerprint =
          .ok () := by
        change (decodeKey labelledCrypto (labelledCrypto.encode (constantKey 9).1) >>= _) = _
        rw [decodeKey, ideal_labelledCrypto.decodes]
        rfl
      rw [validate, accountValid, sealedOk_of_seals ideal_labelledCrypto isSealed,
        passwordWrapOk, kdfValid, sealedOk_of_seals ideal_labelledCrypto wrapped, key]
      rfl
    rw [parse, short, read]
    change (damagedEnvelope.validate labelledCrypto >>= fun _ => pure damagedEnvelope) = _
    rw [valid]
    rfl
  · have wraps : passwordWrap labelledCrypto sampleAccount "pin" sampleParams (constantKey 3)
        (constantKey 9) (some (constantNonce 2)) = .ok _ := rfl
    have pinned := @addPin_eq labelledCrypto damagedEnvelope .fingerprint sampleParams
      (constantKey 3) (constantKey 9) (some (constantNonce 2)) _ (by decide +kernel) (by decide)
      reached wraps
    have pinOpens := @dek_pin labelledCrypto ideal_labelledCrypto damagedEnvelope _ _ _ _ _ wraps
    exact ⟨_, pinned, (openVia_of_dek pinOpens).trans refused⟩

/-! ### Failed changes -/

variable (crypto) in
/-- A rotation that may begin: its first draw seals the password in another ciphertext, but of
the key derived, the second draw and the seal of the wrap one is missing. -/
def Change.Torn (envelope : Envelope) : Change → Prop
  | .rotate auth password master masterKey ctNonce wrapNonce =>
    passwordOk password = .ok () ∧ master.validate = .ok () ∧ ∃ dek nonce c,
      envelope.dek crypto auth = .ok dek ∧ ctNonce = some nonce ∧
      crypto.encrypt dek nonce password (ctAad envelope.account) = some c ∧
      envelope.ct ≠ ⟨crypto.encode nonce.1, crypto.encode c⟩ ∧
      ∀ kek drawn, crypto.expand masterKey (domain ++ utf8 " kek " ++ utf8 "master") = some kek →
        wrapNonce = some drawn →
        crypto.encrypt kek drawn dek.1 (wrapAad envelope.account "master" master) = none
  | _ => False

theorem assign_of_error {result : Except Error Envelope} {error : Error}
    (failed : (envelope.assign result).1 = .error error) :
    result = .error error ∧ (envelope.assign result).2 = envelope := by
  cases result with
  | error cause => exact ⟨congrArg Except.error (Except.error.inj failed), rfl⟩
  | ok changed => cases failed

theorem reseal_eq_ok {password : Bytes} {master : Argon2Params}
    {ctNonce : Option Nonce} {dek : Key} {resealed : Envelope}
    (reseals : envelope.reseal crypto auth password master ctNonce = .ok (dek, resealed)) :
    passwordOk password = .ok () ∧ master.validate = .ok () ∧ ∃ nonce c,
      envelope.dek crypto auth = .ok dek ∧ ctNonce = some nonce ∧
      crypto.encrypt dek nonce password (ctAad envelope.account) = some c ∧
      resealed = { envelope with ct := ⟨crypto.encode nonce.1, crypto.encode c⟩ } := by
  obtain ⟨_, admissible, rest⟩ := ok_of_bind reseals
  obtain ⟨_, valid, rest⟩ := ok_of_bind rest
  obtain ⟨_, reached, rest⟩ := ok_of_bind rest
  obtain ⟨ct, isSealed, rest⟩ := ok_of_bind rest
  obtain ⟨nonce, drawn, rest'⟩ := ok_of_bind isSealed
  obtain ⟨c, encrypted, same⟩ := ok_of_bind rest'
  cases same
  cases rest
  exact ⟨admissible, valid, nonce, c, reached, some_of_orElse drawn, some_of_orElse encrypted, rfl⟩

theorem passwordWrap_fails {account : Account} {kdf : Argon2Params} {input dek : Key}
    {wrapNonce : Option Nonce} :
    (∃ error, passwordWrap crypto account "master" kdf input dek wrapNonce = .error error) ↔
      ∀ kek drawn, crypto.expand input (domain ++ utf8 " kek " ++ utf8 "master") = some kek →
        wrapNonce = some drawn →
        crypto.encrypt kek drawn dek.1 (wrapAad account "master" kdf) = none := by
  unfold passwordWrap deriveKek sealBytes
  cases crypto.expand input (domain ++ utf8 " kek " ++ utf8 "master") with
  | none => exact ⟨nofun, fun _ => ⟨_, rfl⟩⟩
  | some kek =>
    cases wrapNonce with
    | none => exact ⟨nofun, fun _ => ⟨_, rfl⟩⟩
    | some drawn =>
      cases missing : crypto.encrypt kek drawn dek.1 (wrapAad account "master" kdf) with
      | none =>
        refine iff_of_true ⟨.internal, by simp [orElse, bind, Except.bind, missing]⟩ ?_
        rintro _ _ ⟨⟩ ⟨⟩
        exact missing
      | some c =>
        refine iff_of_false ?_ fun none => absurd (none kek drawn rfl rfl) (by simp [missing])
        rintro ⟨_, failed⟩
        simp [orElse, bind, Except.bind, missing, pure, Except.pure] at failed

/-- A change that fails leaves the envelope as it was, unless it is a rotation torn between its
two assignments: that leaves it another. -/
theorem failed_change_unchanged {change : Change} {error : Error}
    (failed : (envelope.change crypto change).1 = .error error) :
    (envelope.change crypto change).2 = envelope ↔ ¬ change.Torn crypto envelope := by
  have whole {result : Except Error Envelope} (failed : (envelope.assign result).1 = .error error) :
      (envelope.assign result).2 = envelope ↔ ¬ False :=
    iff_of_true (assign_of_error failed).2 id
  cases change with
  | addPin auth params pinKey nonce => exact whole failed
  | addFingerprint auth => exact whole failed
  | addFido auth credential rp salt hmac nonce => exact whole failed
  | remove method => cases method <;> exact whole failed
  | markStale => cases failed
  | rotate auth password master masterKey ctNonce wrapNonce =>
    simp only [change, Envelope.rotate] at failed ⊢
    cases resealing : envelope.reseal crypto auth password master ctNonce with
    | error cause =>
      refine iff_of_true rfl ?_
      rintro ⟨admissible, valid, dek, nonce, c, reached, rfl, encrypted, -⟩
      simp [reseal, admissible, valid, reached, sealBytes, orElse, bind, Except.bind, encrypted,
        pure, Except.pure] at resealing
    | ok result =>
      obtain ⟨dek, resealed⟩ := result
      obtain ⟨admissible, valid, nonce, c, reached, drawn, encrypted, rfl⟩ := reseal_eq_ok resealing
      rw [resealing] at failed
      obtain ⟨torn, kept⟩ := assign_of_error failed
      dsimp only at kept ⊢
      rw [kept]
      have unwrapped := passwordWrap_fails.mp <| by
        cases wrapping : passwordWrap crypto envelope.account "master" master masterKey dek
            wrapNonce with
        | error cause => exact ⟨cause, rfl⟩
        | ok wrap =>
          rw [wrapping] at torn
          cases torn
      constructor
      · rintro same ⟨-, -, dek', nonce', c', reached', drawn', encrypted', other, -⟩
        cases reached.symm.trans reached'
        cases drawn.symm.trans drawn'
        cases encrypted.symm.trans encrypted'
        exact other (congrArg Envelope.ct same).symm
      · intro untorn
        by_contra other
        refine untorn ⟨admissible, valid, dek, nonce, c, reached, drawn, encrypted, ?_, unwrapped⟩
        intro same
        exact other (by rw [← same])

theorem failed_change_unchanged_pin :
    ((sampleEnvelope (constantKey 1)).change labelledCrypto (.remove .pin)).2 =
      sampleEnvelope (constantKey 1) :=
  (failed_change_unchanged rfl).mpr id

/-- The second draw of a rotation fails: the new password is in place, and the old master key
opens it. -/
theorem torn_rotation_keeps_ciphertext :
    ∃ after, (sampleEnvelope (constantKey 1)).rotate labelledCrypto (.master (constantKey 2)) [3]
        sampleParams (constantKey 5) (some (constantNonce 6)) none = (.error .internal, after) ∧
      after ≠ sampleEnvelope (constantKey 1) ∧
      after.openVia labelledCrypto (.master (constantKey 2)) = .ok [3] := by
  have reached : (sampleEnvelope (constantKey 1)).dek labelledCrypto (.master (constantKey 2)) =
      .ok (constantKey 1) := dek_master ideal_labelledCrypto (wraps_sampleEnvelope (constantKey 1))
  have valid : sampleParams.validate = .ok () := by decide +kernel
  have short : passwordOk [3] = .ok () := by decide
  obtain ⟨ct, isSealed, torn⟩ : ∃ ct, sealBytes labelledCrypto (constantKey 1) [3]
        (ctAad sampleAccount) (some (constantNonce 6)) = .ok ct ∧
      (sampleEnvelope (constantKey 1)).reseal labelledCrypto (.master (constantKey 2)) [3]
        sampleParams (some (constantNonce 6)) =
          .ok (constantKey 1, { sampleEnvelope (constantKey 1) with ct := ct }) := by
    refine ⟨_, rfl, ?_⟩
    unfold reseal
    rw [short, valid, reached]
    rfl
  have opened : openSealed labelledCrypto (constantKey 1) ct.n ct.c (ctAad sampleAccount) =
      .ok [3] := by
    rw [openSealed_of_seals ideal_labelledCrypto (seals_of_sealBytes isSealed), if_pos rfl]
  have old : Seals labelledCrypto (constantKey 1) [1, 2] (ctAad sampleAccount)
      (sampleEnvelope (constantKey 1)).ct.n (sampleEnvelope (constantKey 1)).ct.c :=
    ⟨constantNonce 0, _, rfl, rfl, rfl⟩
  refine ⟨{ sampleEnvelope (constantKey 1) with ct := ct }, by rw [Envelope.rotate, torn]; rfl, ?_,
    ?_⟩
  · intro same
    rw [show ct = (sampleEnvelope (constantKey 1)).ct from congrArg Envelope.ct same,
      openSealed_of_seals ideal_labelledCrypto old, if_pos rfl] at opened
    exact absurd opened (by decide)
  · have still : ({ sampleEnvelope (constantKey 1) with ct := ct } : Envelope).dek labelledCrypto
        (.master (constantKey 2)) = .ok (constantKey 1) :=
      dek_master ideal_labelledCrypto (wraps_sampleEnvelope (constantKey 1))
    exact (openVia_of_dek still).trans opened

end QsBitwarden.UnlockKey
