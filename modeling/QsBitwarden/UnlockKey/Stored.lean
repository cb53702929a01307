import QsBitwarden.Lib.Base64
import QsBitwarden.Lib.JsonText
import QsBitwarden.UnlockKey.Enrolment

/-! Owns the envelope as a file (`unlock-key/src/lib.rs`): its JSON as `serde` derives it,
the checks made when it is read, and that whatever the operations leave passes them. It
does not own how large a file grows. -/

namespace QsBitwarden.UnlockKey

open Lib List Option Envelope Json

def maxEnvelopeBytes : ℕ := 64 * 1024

/-! ### Writing -/

def Account.toValue (account : Account) : Json :=
  .object [("id", .string account.id), ("server", .string account.server)]

def natural (value : ℕ) : Json := .number (.natural value)

def Argon2Params.toValue (params : Argon2Params) : Json :=
  .object [("alg", .string params.alg), ("salt", .string params.salt), ("m", natural params.m),
    ("t", natural params.t), ("p", natural params.p)]

def Sealed.toValue (sealed : Sealed) : Json :=
  .object [("n", .string sealed.n), ("c", .string sealed.c)]

def PasswordWrap.toValue (wrap : PasswordWrap) : Json :=
  .object [("kdf", wrap.kdf.toValue), ("n", .string wrap.n), ("c", .string wrap.c)]

def fingerprintValue (key : String) : Json := .object [("k", .string key)]

def FidoWrap.toValue (wrap : FidoWrap) : Json :=
  .object [("cred", .string wrap.cred), ("rp", .string wrap.rp), ("salt", .string wrap.salt),
    ("n", .string wrap.n), ("c", .string wrap.c)]

/-- A list that is left out when it is empty. -/
def fidoValue (fido : List FidoWrap) : Option Json :=
  if fido.isEmpty then none else some (.array (fido.map FidoWrap.toValue))

/-- A field that is written if it has a value. -/
def fieldIfSome (name : String) (value : Option Json) : Fields := value.toList.map (Prod.mk name)

def Wraps.toValue (wraps : Wraps) : Json :=
  .object ([("master", wraps.master.toValue)] ++
    fieldIfSome "pin" (wraps.pin.map PasswordWrap.toValue) ++
    fieldIfSome "fingerprint" (wraps.fingerprint.map fingerprintValue) ++
    fieldIfSome "fido" (fidoValue wraps.fido))

def Envelope.toValue (envelope : Envelope) : Json :=
  .object [("v", natural envelope.v), ("account", envelope.account.toValue),
    ("stale", .bool envelope.stale), ("ct", envelope.ct.toValue),
    ("wraps", envelope.wraps.toValue)]

/-! ### Reading -/

/-- The fields of a struct, in their order, as its derived reader takes them: from an object
with no other and no repeated field, or from a sequence. -/
def structFields (names : List String) : Json → Option (List (Option Json))
  | .object fields =>
    if fields.all (fun field => names.contains field.1) ∧ (fields.map Prod.fst).Nodup then
      some (names.map (Fields.get fields))
    else none
  | .array items =>
    if items.length ≤ names.length then
      some ((List.range names.length).map fun index => items[index]?)
    else none
  | _ => none

/-- A field that must be there. -/
def required {α : Type} (read : Json → Option α) (field : Option Json) : Option α := field.bind read

/-- A field that may be left out or null. -/
def optional {α : Type} (read : Json → Option α) : Option Json → Option (Option α)
  | none => some none
  | some .null => some none
  | some value => (read value).map some

/-- A field that has a default, and may not be null. -/
def defaulted {α : Type} (default : α) (read : Json → Option α) : Option Json → Option α
  | none => some default
  | some value => read value

def unsigned (bits : ℕ) (value : Json) : Option ℕ := value.asU64.filter (· < 2 ^ bits)

def asBool : Json → Option Bool
  | .bool value => some value
  | _ => none

def Account.ofValue (value : Json) : Option Account := do
  let fields ← structFields ["id", "server"] value
  match fields with
  | [id, server] => some ⟨← required asStr id, ← required asStr server⟩
  | _ => none

def Argon2Params.ofValue (value : Json) : Option Argon2Params := do
  let fields ← structFields ["alg", "salt", "m", "t", "p"] value
  match fields with
  | [alg, salt, m, t, p] =>
    some ⟨← required asStr alg, ← required asStr salt, ← required (unsigned 32) m,
      ← required (unsigned 32) t, ← required (unsigned 32) p⟩
  | _ => none

def Sealed.ofValue (value : Json) : Option Sealed := do
  let fields ← structFields ["n", "c"] value
  match fields with
  | [n, c] => some ⟨← required asStr n, ← required asStr c⟩
  | _ => none

def PasswordWrap.ofValue (value : Json) : Option PasswordWrap := do
  let fields ← structFields ["kdf", "n", "c"] value
  match fields with
  | [kdf, n, c] =>
    some ⟨← required Argon2Params.ofValue kdf, ← required asStr n, ← required asStr c⟩
  | _ => none

def fingerprintOfValue (value : Json) : Option String := do
  let fields ← structFields ["k"] value
  match fields with
  | [key] => required asStr key
  | _ => none

def FidoWrap.ofValue (value : Json) : Option FidoWrap := do
  let fields ← structFields ["cred", "rp", "salt", "n", "c"] value
  match fields with
  | [cred, rp, salt, n, c] =>
    some ⟨← required asStr cred, ← required asStr rp, ← required asStr salt,
      ← required asStr n, ← required asStr c⟩
  | _ => none

def fidoOfValue (value : Json) : Option (List FidoWrap) := do
  (← value.asArray).mapM FidoWrap.ofValue

def Wraps.ofValue (value : Json) : Option Wraps := do
  let fields ← structFields ["master", "pin", "fingerprint", "fido"] value
  match fields with
  | [master, pin, fingerprint, fido] =>
    some ⟨← required PasswordWrap.ofValue master, ← optional PasswordWrap.ofValue pin,
      ← optional fingerprintOfValue fingerprint,
      ← defaulted [] fidoOfValue fido⟩
  | _ => none

def Envelope.ofValue (value : Json) : Option Envelope := do
  let fields ← structFields ["v", "account", "stale", "ct", "wraps"] value
  match fields with
  | [v, account, stale, ct, wraps] =>
    some ⟨← required (unsigned 8) v, ← required Account.ofValue account,
      ← defaulted false asBool stale, ← required Sealed.ofValue ct, ← required Wraps.ofValue wraps⟩
  | _ => none

/-- The texts of floats, of which an envelope has none. -/
structure FloatText where
  print : UInt64 → Text
  read : Text → UInt64

variable (crypto : Crypto) (floats : FloatText)

def sealedOk (n c : String) : Except Error Unit := do
  let nonce ← orElse .malformed (crypto.decode n)
  let _ ← orElse .malformed (crypto.decode c)
  require (nonce.length = nonceLen) .malformed

def passwordWrapOk (wrap : PasswordWrap) : Except Error Unit := do
  wrap.kdf.validate
  sealedOk crypto wrap.n wrap.c

/-- The credentials one after the other, each unlike the earlier ones. -/
def fidosOk (earlier : List FidoWrap) : List FidoWrap → Except Error Unit
  | [] => .ok ()
  | wrap :: rest => do
    fidoFieldsOk crypto wrap.cred wrap.rp wrap.salt
    sealedOk crypto wrap.n wrap.c
    require (¬ earlier.any fun other => other.cred = wrap.cred) .malformed
    fidosOk (earlier ++ [wrap]) rest

/-- A check of a method that may not be enrolled. -/
def ifEnrolled {α β : Type} (check : α → Except Error β) : Option α → Except Error Unit
  | none => .ok ()
  | some wrap => do
    let _ ← check wrap
    .ok ()

namespace Envelope

def validate (envelope : Envelope) : Except Error Unit := do
  require (envelope.v = version) .malformed
  envelope.account.validate
  sealedOk crypto envelope.ct.n envelope.ct.c
  passwordWrapOk crypto envelope.wraps.master
  ifEnrolled (passwordWrapOk crypto) envelope.wraps.pin
  ifEnrolled (decodeKey crypto) envelope.wraps.fingerprint
  require (envelope.wraps.fido.length ≤ maxFidoWraps) .policy
  fidosOk crypto [] envelope.wraps.fido

def toJson (envelope : Envelope) : Bytes :=
  utf8 (String.ofList (write floats.print envelope.toValue))

def fromSlice (bytes : Bytes) : Option Envelope := do
  let text ← String.fromUTF8? ⟨bytes.toArray⟩
  let value ← read floats.read text.toList
  ofValue value

def parse (bytes : Bytes) : Except Error Envelope := do
  require (bytes.length ≤ maxEnvelopeBytes) .policy
  let envelope ← orElse .malformed (fromSlice floats bytes)
  envelope.validate crypto
  pure envelope

end Envelope

/-! ### Values read back -/

section Values

theorem structFields_object {names : List String} {fields : Fields} (distinct : names.Nodup)
    (known : (fields.map Prod.fst).Sublist names) :
    structFields names (.object fields) = some (names.map (Fields.get fields)) := by
  refine if_pos ⟨all_eq_true.mpr fun field mem => ?_, distinct.sublist known⟩
  rw [contains_iff_mem]
  exact known.subset (mem_map_of_mem mem)

theorem unsigned_natural {bits value : ℕ} (fits : value < 2 ^ bits) :
    unsigned bits (natural value) = some value := by
  simp [unsigned, natural, asU64, fits]

theorem Account.ofValue_toValue (account : Account) :
    Account.ofValue account.toValue = some account := by
  have fields : structFields ["id", "server"] account.toValue = _ :=
    structFields_object (by decide) (Sublist.refl _)
  unfold Account.ofValue
  rw [fields]
  simp [Fields.get_cons, required, asStr]

theorem Argon2Params.ofValue_toValue {params : Argon2Params} (m : params.m < 2 ^ 32)
    (t : params.t < 2 ^ 32) (p : params.p < 2 ^ 32) :
    Argon2Params.ofValue params.toValue = some params := by
  have fields : structFields ["alg", "salt", "m", "t", "p"] params.toValue = _ :=
    structFields_object (by decide) (Sublist.refl _)
  unfold Argon2Params.ofValue
  rw [fields]
  simp [Fields.get_cons, required, asStr, unsigned_natural m, unsigned_natural t,
    unsigned_natural p]

theorem Sealed.ofValue_toValue (sealed : Sealed) : Sealed.ofValue sealed.toValue = some sealed := by
  have fields : structFields ["n", "c"] sealed.toValue = _ :=
    structFields_object (by decide) (Sublist.refl _)
  unfold Sealed.ofValue
  rw [fields]
  simp [Fields.get_cons, required, asStr]

/-- The costs fit their type. -/
structure Argon2Params.Fits (params : Argon2Params) : Prop where
  m : params.m < 2 ^ 32
  t : params.t < 2 ^ 32
  p : params.p < 2 ^ 32

theorem PasswordWrap.ofValue_toValue {wrap : PasswordWrap} (fits : wrap.kdf.Fits) :
    PasswordWrap.ofValue wrap.toValue = some wrap := by
  have fields : structFields ["kdf", "n", "c"] wrap.toValue = _ :=
    structFields_object (by decide) (Sublist.refl _)
  unfold PasswordWrap.ofValue
  rw [fields]
  simp [Fields.get_cons, required, asStr,
    Argon2Params.ofValue_toValue fits.m fits.t fits.p]

theorem fingerprintOfValue_value (key : String) :
    fingerprintOfValue (fingerprintValue key) = some key := by
  have fields : structFields ["k"] (fingerprintValue key) = _ :=
    structFields_object (by decide) (Sublist.refl _)
  unfold fingerprintOfValue
  rw [fields]
  simp [Fields.get_cons, required, asStr]

theorem FidoWrap.ofValue_toValue (wrap : FidoWrap) : FidoWrap.ofValue wrap.toValue = some wrap := by
  have fields : structFields ["cred", "rp", "salt", "n", "c"] wrap.toValue = _ :=
    structFields_object (by decide) (Sublist.refl _)
  unfold FidoWrap.ofValue
  rw [fields]
  simp [Fields.get_cons, required, asStr]

theorem fidoOfValue_array (fido : List FidoWrap) :
    fidoOfValue (.array (fido.map FidoWrap.toValue)) = some fido := by
  change (fido.map FidoWrap.toValue).mapM FidoWrap.ofValue = some fido
  induction fido with
  | nil => rfl
  | cons wrap rest ih =>
    rw [map_cons, mapM_cons, FidoWrap.ofValue_toValue, ih]
    rfl

theorem optional_some {α : Type} {read : Json → Option α} {value : Json} {result : α}
    (reads : read value = some result) (present : value ≠ .null) :
    optional read (some value) = some (some result) := by
  cases value with
  | null => exact absurd rfl present
  | _ =>
    unfold optional
    dsimp only
    rw [reads]
    rfl

/-- The fields of the methods that are enrolled, in the order of the struct. -/
theorem wraps_fields (master : Json) (pin fingerprint fido : Option Json) :
    structFields ["master", "pin", "fingerprint", "fido"]
      (.object ([("master", master)] ++ fieldIfSome "pin" pin ++
        fieldIfSome "fingerprint" fingerprint ++ fieldIfSome "fido" fido)) =
      some [some master, pin, fingerprint, fido] := by
  have distinct : ["master", "pin", "fingerprint", "fido"].Nodup := by decide
  have known : (([("master", master)] ++ fieldIfSome "pin" pin ++
      fieldIfSome "fingerprint" fingerprint ++ fieldIfSome "fido" fido).map Prod.fst).Sublist
        ["master", "pin", "fingerprint", "fido"] := by
    cases pin <;> cases fingerprint <;> cases fido <;>
      simp only [fieldIfSome, Option.toList, map_cons, map_nil, append_nil,
        cons_append, nil_append] <;> decide
  rw [structFields_object distinct known]
  cases pin <;> cases fingerprint <;> cases fido <;> simp [fieldIfSome, Fields.get_cons]

theorem Wraps.ofValue_toValue {wraps : Wraps} (master : wraps.master.kdf.Fits)
    (pin : ∀ wrap ∈ wraps.pin, wrap.kdf.Fits) : Wraps.ofValue wraps.toValue = some wraps := by
  have pinned : optional PasswordWrap.ofValue (wraps.pin.map PasswordWrap.toValue) =
      some wraps.pin := by
    cases enrolled : wraps.pin with
    | none => rfl
    | some wrap => exact optional_some (PasswordWrap.ofValue_toValue (pin wrap enrolled)) (by
        intro null
        cases null)
  have printed : optional fingerprintOfValue (wraps.fingerprint.map fingerprintValue) =
      some wraps.fingerprint := by
    cases wraps.fingerprint with
    | none => rfl
    | some key => exact optional_some (fingerprintOfValue_value key) (by
        intro null
        cases null)
  have listed : defaulted [] fidoOfValue (fidoValue wraps.fido) = some wraps.fido := by
    unfold fidoValue
    cases wraps.fido with
    | nil => rfl
    | cons wrap rest => exact fidoOfValue_array (wrap :: rest)
  unfold Wraps.ofValue Wraps.toValue
  rw [wraps_fields]
  simp only [bind_eq_bind, bind_some, required, PasswordWrap.ofValue_toValue master,
    pinned, printed, listed]

variable {envelope : Envelope}

theorem Envelope.ofValue_toValue (v : envelope.v < 2 ^ 8) (master : envelope.wraps.master.kdf.Fits)
    (pin : ∀ wrap ∈ envelope.wraps.pin, wrap.kdf.Fits) :
    ofValue envelope.toValue = some envelope := by
  have fields : structFields ["v", "account", "stale", "ct", "wraps"] envelope.toValue = _ :=
    structFields_object (by decide) (Sublist.refl _)
  unfold ofValue
  rw [fields]
  simp [Fields.get_cons, required, defaulted, asBool, unsigned_natural v,
    Account.ofValue_toValue, Sealed.ofValue_toValue, Wraps.ofValue_toValue master pin]

theorem whole_natural {bits value : ℕ} (small : bits ≤ 64) (fits : value < 2 ^ bits) :
    Json.Whole (natural value) :=
  fits.trans_le (Nat.pow_le_pow_right (by decide) small)

theorem PasswordWrap.whole {wrap : PasswordWrap} (fits : wrap.kdf.Fits) :
    Json.Whole wrap.toValue := by
  have costs : Json.Whole wrap.kdf.toValue :=
    ⟨trivial, trivial, whole_natural (by decide) fits.m, whole_natural (by decide) fits.t,
      whole_natural (by decide) fits.p, trivial⟩
  exact ⟨costs, trivial, trivial, trivial⟩

theorem whole_fido (fido : List FidoWrap) : Json.WholeEach (fido.map FidoWrap.toValue) := by
  induction fido with
  | nil => trivial
  | cons wrap rest ih => exact ⟨⟨trivial, trivial, trivial, trivial, trivial, trivial⟩, ih⟩

theorem Wraps.whole {wraps : Wraps} (master : wraps.master.kdf.Fits)
    (pin : ∀ wrap ∈ wraps.pin, wrap.kdf.Fits) : Json.Whole wraps.toValue := by
  have fido : ∀ value ∈ fidoValue wraps.fido, Json.Whole value := by
    intro value written
    unfold fidoValue at written
    split at written
    · cases written
    · cases written
      exact whole_fido wraps.fido
  have append : ∀ name (value : Option Json) (fields : Fields),
      (∀ found ∈ value, Json.Whole found) →
      Json.WholeFields fields → Json.WholeFields (fieldIfSome name value ++ fields) := by
    intro name value fields each rest
    cases value with
    | none => exact rest
    | some found => exact ⟨each found rfl, rest⟩
  change Json.WholeFields _
  rw [append_assoc, append_assoc]
  refine ⟨PasswordWrap.whole master, append _ _ _ ?_ (append _ _ _ ?_ ?_)⟩
  · intro value written
    obtain ⟨wrap, enrolled, rfl⟩ := map_eq_some_iff.mp written
    exact PasswordWrap.whole (pin wrap enrolled)
  · intro value written
    obtain ⟨key, -, rfl⟩ := map_eq_some_iff.mp written
    exact ⟨trivial, trivial⟩
  · have last := append "fido" _ [] fido trivial
    rw [append_nil] at last
    exact last

theorem Envelope.whole (v : envelope.v < 2 ^ 8) (master : envelope.wraps.master.kdf.Fits)
    (pin : ∀ wrap ∈ envelope.wraps.pin, wrap.kdf.Fits) : Json.Whole envelope.toValue :=
  ⟨whole_natural (by decide) v, ⟨trivial, trivial, trivial⟩, trivial, ⟨trivial, trivial, trivial⟩,
    Wraps.whole master pin, trivial⟩

theorem utf8_eq_data (text : String) : utf8 text = text.toByteArray.data.toList :=
  toUTF8_toList text

theorem fromUTF8_utf8 (text : String) : String.fromUTF8? ⟨(utf8 text).toArray⟩ = some text :=
  fromUTF8_toUTF8_toList text

theorem Envelope.fromSlice_toJson {floats : FloatText}
    (v : envelope.v < 2 ^ 8) (master : envelope.wraps.master.kdf.Fits)
    (pin : ∀ wrap ∈ envelope.wraps.pin, wrap.kdf.Fits) :
    fromSlice floats (envelope.toJson floats) = some envelope := by
  unfold fromSlice toJson
  rw [fromUTF8_utf8]
  simp only [bind_eq_bind, bind_some, String.toList_ofList,
    read_write floats.print (whole v master pin), ofValue_toValue v master pin]

end Values

/-! ### What is kept is valid -/

def tagLen : ℕ := 16

/-- Base64 reads back and has its lengths, and a ciphertext is its plaintext and a tag. -/
structure Sized : Prop where
  decodes : ∀ bytes, crypto.decode (crypto.encode bytes) = some bytes
  text : ∀ {text bytes}, crypto.decode text = some bytes →
    text.toList.all Base64.isSymbol = true ∧ text.length = 4 * ((bytes.length + 2) / 3)
  tagged : ∀ {key nonce plaintext aad c}, crypto.encrypt key nonce plaintext aad = some c →
    c.length = plaintext.length + tagLen

/-- A nonce, and a ciphertext of no more than this many bytes. -/
def Stored (length : ℕ) (n c : String) : Prop :=
  ∃ nonce sealed, crypto.decode n = some nonce ∧ crypto.decode c = some sealed ∧
    nonce.length = nonceLen ∧ sealed.length ≤ length + tagLen

structure StoredWrap (wrap : PasswordWrap) : Prop where
  kdf : wrap.kdf.validate = .ok ()
  stored : Stored crypto keyLen wrap.n wrap.c

structure StoredFido (wrap : FidoWrap) : Prop where
  fields : fidoFieldsOk crypto wrap.cred wrap.rp wrap.salt = .ok ()
  stored : Stored crypto keyLen wrap.n wrap.c

def StoredKey (text : String) : Prop := ∃ key, decodeKey crypto text = .ok key

structure Kept (envelope : Envelope) : Prop where
  v : envelope.v = version
  account : envelope.account.validate = .ok ()
  ct : Stored crypto maxPasswordBytes envelope.ct.n envelope.ct.c
  master : StoredWrap crypto envelope.wraps.master
  pin : ∀ wrap ∈ envelope.wraps.pin, StoredWrap crypto wrap
  fingerprint : ∀ key ∈ envelope.wraps.fingerprint, StoredKey crypto key
  count : envelope.wraps.fido.length ≤ maxFidoWraps
  fido : ∀ wrap ∈ envelope.wraps.fido, StoredFido crypto wrap
  distinct : (envelope.wraps.fido.map FidoWrap.cred).Nodup

variable {crypto} {floats} {envelope after : Envelope}

variable {nonce : Option Nonce}

section

variable (sized : Sized crypto)

include sized

theorem stored_of_sealBytes {key : Key} {plaintext aad : Bytes}
    {sealed : Sealed} {length : ℕ} (short : plaintext.length ≤ length)
    (done : sealBytes crypto key plaintext aad nonce = .ok sealed) :
    Stored crypto length sealed.n sealed.c := by
  obtain ⟨drawn, bytes, encrypted, n, c⟩ := seals_of_sealBytes done
  refine ⟨drawn.1, bytes, ?_, ?_, drawn.2, ?_⟩
  · rw [n, sized.decodes]
  · rw [c, sized.decodes]
  · rw [sized.tagged encrypted]
    omega

theorem storedWrap_of_passwordWrap {account : Account} {purpose : String}
    {kdf : Argon2Params} {input dek : Key} {wrap : PasswordWrap} (valid : kdf.validate = .ok ())
    (done : passwordWrap crypto account purpose kdf input dek nonce = .ok wrap) :
    StoredWrap crypto wrap := by
  obtain ⟨kek, derived, rest⟩ := ok_of_bind done
  obtain ⟨sealed, isSealed, result⟩ := ok_of_bind rest
  cases result
  exact ⟨valid, stored_of_sealBytes sized dek.2.le isSealed⟩

theorem kept_create {account : Account} {password : Bytes}
    {master : Argon2Params} {masterKey : Key} {dek : Option Key} {ctNonce wrapNonce : Option Nonce}
    (done : create crypto account password master masterKey dek ctNonce wrapNonce =
      .ok envelope) : Kept crypto envelope := by
  unfold create at done
  obtain ⟨⟨⟩, accountValid, rest⟩ := ok_of_bind done
  obtain ⟨⟨⟩, masterValid, rest⟩ := ok_of_bind rest
  obtain ⟨⟨⟩, short, rest⟩ := ok_of_bind rest
  obtain ⟨drawn, _, rest⟩ := ok_of_bind rest
  obtain ⟨ct, isSealed, rest⟩ := ok_of_bind rest
  obtain ⟨wrap, wrapped, result⟩ := ok_of_bind rest
  cases result
  exact
    { v := rfl
      account := accountValid
      ct := stored_of_sealBytes sized (of_require short).2 isSealed
      master := storedWrap_of_passwordWrap sized masterValid wrapped
      pin := nofun
      fingerprint := nofun
      count := Nat.zero_le _
      fido := nofun
      distinct := nodup_nil }

end

theorem mem_placeFido {fido : List FidoWrap} {wrap other : FidoWrap}
    (mem : other ∈ placeFido fido wrap) : other ∈ fido ∨ other = wrap := by
  unfold placeFido at mem
  split at mem
  · exact (mem_or_eq_of_mem_set mem).imp_right id
  · simpa using mem

theorem Kept.change (sized : Sized crypto) (kept : Kept crypto envelope) {change : Change}
    (done : envelope.change crypto change = (.ok (), after)) : Kept crypto after := by
  cases changed_of_change done with
  | addPin valid reached wrapped =>
    refine { kept with pin := fun other enrolled => ?_ }
    cases enrolled
    exact storedWrap_of_passwordWrap sized valid wrapped
  | @addFingerprint auth dek reached =>
    refine { kept with fingerprint := fun key enrolled => ?_ }
    cases enrolled
    refine ⟨dek, ?_⟩
    unfold decodeKey
    rw [sized.decodes]
    exact keyFrom_bytes dek
  | @addFido auth credential rp salt hmac nonce dek kek sealed fields reached room derived
      isSealed =>
    refine
      { kept with
        count := ?_
        fido := ?_
        distinct := distinct_placeFido kept.distinct }
    · change (placeFido envelope.wraps.fido _).length ≤ maxFidoWraps
      unfold placeFido
      split
      · rw [length_set]
        exact kept.count
      · next missing =>
        rw [length_append, length_singleton]
        have below : ¬ maxFidoWraps ≤ envelope.wraps.fido.length := fun full =>
          room ⟨by rw [missing]; rfl, full⟩
        omega
    · intro wrap mem
      rcases mem_placeFido mem with before | rfl
      · exact kept.fido wrap before
      · exact ⟨fields, stored_of_sealBytes sized dek.2.le isSealed⟩
  | removePin => exact { kept with pin := nofun }
  | removeFingerprint => exact { kept with fingerprint := nofun }
  | @removeFido credential index found =>
    have fewer := eraseIdx_sublist envelope.wraps.fido index
    exact
      { kept with
        count := fewer.length_le.trans kept.count
        fido := fun wrap mem => kept.fido wrap (fewer.subset mem)
        distinct := kept.distinct.sublist (fewer.map _) }
  | markStale => exact { kept with }
  | rotate short valid reached isSealed wrapped =>
    exact
      { kept with
        ct := stored_of_sealBytes sized (of_require short).2 isSealed
        master := storedWrap_of_passwordWrap sized valid wrapped }

theorem run_kept (sized : Sized crypto) {history : List Operation} {state : Option Envelope}
    (run : Run (enrolments crypto) history state) :
    ∀ envelope, state = some envelope → Kept crypto envelope := by
  induction run with
  | start initial =>
    intro envelope isSome
    rw [show _ = none from initial] at isSome
    cases isSome
  | next run step ih =>
    intro envelope isSome
    subst isSome
    cases step with
    | create done => exact kept_create sized done
    | change done => exact (ih _ rfl).change sized done

theorem sealedOk_of_stored {length : ℕ} {n c : String} (stored : Stored crypto length n c) :
    sealedOk crypto n c = .ok () := by
  obtain ⟨nonce, sealed, n, c, sized, -⟩ := stored
  unfold sealedOk
  rw [n, c]
  exact if_pos sized

theorem StoredWrap.ok {wrap : PasswordWrap} (stored : StoredWrap crypto wrap) :
    passwordWrapOk crypto wrap = .ok () := by
  unfold passwordWrapOk
  rw [stored.kdf]
  exact sealedOk_of_stored stored.stored

theorem fidosOk_of_distinct {earlier fido : List FidoWrap}
    (each : ∀ wrap ∈ fido, StoredFido crypto wrap)
    (distinct : ((earlier ++ fido).map FidoWrap.cred).Nodup) :
    fidosOk crypto earlier fido = .ok () := by
  induction fido generalizing earlier with
  | nil => rfl
  | cons wrap rest ih =>
    have stored := each wrap mem_cons_self
    have unlike : ¬ earlier.any (fun other => other.cred = wrap.cred) = true := by
      intro found
      obtain ⟨other, mem, same⟩ := any_eq_true.mp found
      rw [map_append, nodup_append] at distinct
      exact distinct.2.2 _ (mem_map_of_mem mem) _ mem_cons_self
        (of_decide_eq_true same)
    have fresh : require (¬ earlier.any (fun other => other.cred = wrap.cred) = true)
        .malformed = .ok () := if_pos unlike
    have later : fidosOk crypto (earlier ++ [wrap]) rest = .ok () := by
      refine ih (fun other mem => each other (mem_cons_of_mem _ mem))
        ?_
      rw [append_assoc]
      exact distinct
    unfold fidosOk
    rw [stored.fields, sealedOk_of_stored stored.stored, fresh]
    exact later

theorem ifEnrolled_ok {α β : Type} {check : α → Except Error β} {wrap : Option α}
    (each : ∀ found ∈ wrap, ∃ result, check found = .ok result) :
    ifEnrolled check wrap = .ok () := by
  cases wrap with
  | none => rfl
  | some found =>
    obtain ⟨result, checked⟩ := each found rfl
    change (check found >>= fun _ => .ok ()) = _
    rw [checked]
    rfl

/-- Anything an operation leaves passes the checks made when it is read. -/
theorem Kept.validate (kept : Kept crypto envelope) : envelope.validate crypto = .ok () := by
  have v : require (envelope.v = version) .malformed = .ok () := if_pos kept.v
  have pin : ifEnrolled (passwordWrapOk crypto) envelope.wraps.pin = .ok () :=
    ifEnrolled_ok fun wrap enrolled => ⟨(), (kept.pin wrap enrolled).ok⟩
  have fingerprint : ifEnrolled (decodeKey crypto) envelope.wraps.fingerprint = .ok () :=
    ifEnrolled_ok kept.fingerprint
  have count : require (envelope.wraps.fido.length ≤ maxFidoWraps) .policy = .ok () :=
    if_pos kept.count
  unfold Envelope.validate
  rw [v, kept.account, sealedOk_of_stored kept.ct, kept.master.ok, pin, fingerprint, count]
  exact fidosOk_of_distinct kept.fido kept.distinct

theorem fits_of_validate {params : Argon2Params} (valid : params.validate = .ok ()) :
    params.Fits := by
  obtain ⟨⟨⟩, _, rest⟩ := ok_of_bind valid
  have costs := (of_require rest).2
  simp only [Argon2Params.costOk, Bool.and_eq_true, decide_eq_true_eq] at costs
  obtain ⟨⟨⟨-, m⟩, -, t⟩, -, p⟩ := costs
  simp only [argon2MaxMemoryKib, argon2MaxIterations, argon2MaxParallelism] at m t p
  exact ⟨by omega, by omega, by omega⟩

theorem Kept.fromSlice (kept : Kept crypto envelope) :
    fromSlice floats (envelope.toJson floats) = some envelope := by
  refine fromSlice_toJson ?_ (fits_of_validate kept.master.kdf)
    fun wrap enrolled => fits_of_validate (kept.pin wrap enrolled).kdf
  rw [kept.v]
  decide

theorem Kept.parse (kept : Kept crypto envelope) :
    Envelope.parse crypto floats (envelope.toJson floats) =
      if (envelope.toJson floats).length ≤ maxEnvelopeBytes then .ok envelope
      else .error .policy := by
  unfold Envelope.parse
  rw [kept.fromSlice]
  by_cases small : (envelope.toJson floats).length ≤ maxEnvelopeBytes
  · have room : require ((envelope.toJson floats).length ≤ maxEnvelopeBytes) .policy = .ok () :=
      if_pos small
    rw [if_pos small, room]
    change (envelope.validate crypto >>= fun _ => pure envelope) = _
    rw [kept.validate]
    rfl
  · have full : require ((envelope.toJson floats).length ≤ maxEnvelopeBytes) .policy =
        .error .policy := if_neg small
    rw [if_neg small, full]
    rfl

end QsBitwarden.UnlockKey
