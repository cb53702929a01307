import Mathlib.Data.List.Nodup
import QsBitwarden.Lib.History
import QsBitwarden.UnlockKey.Envelope

/-! Owns what the methods of an envelope open, over any sequence of successful operations:
each one exactly the password last sealed, as long as it is enrolled. It does not own
envelopes read from a file. -/

namespace QsBitwarden.UnlockKey

open Lib List Option Envelope

variable {crypto : Crypto}

/-! ### Ideal primitives -/

variable (crypto) in
/-- A ciphertext opens under the key, nonce and associated data it was sealed with and no
others; expansion to one key never fails and keeps inputs apart; base64 reads back. -/
structure Ideal : Prop where
  opens : ∀ {key nonce plaintext aad c}, crypto.encrypt key nonce plaintext aad = some c →
    crypto.decrypt key nonce c aad = some plaintext
  only : ∀ {key nonce plaintext aad c key' nonce' aad' opened},
    crypto.encrypt key nonce plaintext aad = some c →
    crypto.decrypt key' nonce' c aad' = some opened → key' = key ∧ nonce' = nonce ∧ aad' = aad
  expands : ∀ input info, (crypto.expand input info).isSome
  injective : ∀ {input input' info kek}, crypto.expand input info = some kek →
    crypto.expand input' info = some kek → input' = input
  decodes : ∀ bytes, crypto.decode (crypto.encode bytes) = some bytes

/-! ### Results -/

section Results

variable {α β : Type} {error : Error}

theorem ok_of_bind {first : Except Error α} {next : α → Except Error β} {result : β}
    (done : (first >>= next) = .ok result) :
    ∃ value, first = .ok value ∧ next value = .ok result := by
  cases first with
  | error failed => cases done
  | ok value => exact ⟨value, rfl, done⟩

theorem some_of_orElse {value : Option α} {result : α} (done : orElse error value = .ok result) :
    value = some result := by
  cases value with
  | none => cases done
  | some found => exact congrArg some (Except.ok.inj done)

theorem ok_of_assign {envelope after : Envelope} {result : Except Error Envelope}
    (done : envelope.assign result = (.ok (), after)) : result = .ok after := by
  cases result with
  | error failed => cases done
  | ok changed => exact congrArg Except.ok (Prod.mk.inj done).2

end Results

/-! ### Sealed values and wraps -/

variable (crypto) in
/-- The two texts are what sealing leaves in the envelope. -/
def Seals (key : Key) (plaintext aad : Bytes) (n c : String) : Prop :=
  ∃ (nonce : Nonce) (sealed : Bytes), crypto.encrypt key nonce plaintext aad = some sealed ∧
    n = crypto.encode nonce.1 ∧ c = crypto.encode sealed

variable {key : Key}

theorem seals_of_sealBytes {plaintext aad : Bytes} {nonce : Option Nonce}
    {sealed : Sealed} (done : sealBytes crypto key plaintext aad nonce = .ok sealed) :
    Seals crypto key plaintext aad sealed.n sealed.c := by
  obtain ⟨drawn, _, rest⟩ := ok_of_bind done
  obtain ⟨bytes, encrypted, result⟩ := ok_of_bind rest
  cases result
  exact ⟨drawn, bytes, some_of_orElse encrypted, rfl, rfl⟩

/-- What was sealed opens under its own key only. -/
theorem openSealed_of_seals (ideal : Ideal crypto) {plaintext aad : Bytes}
    {n c : String} (seals : Seals crypto key plaintext aad n c) (key' : Key) :
    openSealed crypto key' n c aad = if key' = key then .ok plaintext else .error .wrongKey := by
  obtain ⟨nonce, sealed, encrypted, rfl, rfl⟩ := seals
  have decrypts : openSealed crypto key' (crypto.encode nonce.1) (crypto.encode sealed) aad =
      orElse .wrongKey (crypto.decrypt key' nonce sealed aad) := by
    unfold openSealed
    rw [ideal.decodes, ideal.decodes]
    exact dif_pos nonce.2
  rw [decrypts]
  by_cases same : key' = key
  · rw [if_pos same, same, ideal.opens encrypted]
    rfl
  · rw [if_neg same]
    cases opened : crypto.decrypt key' nonce sealed aad with
    | none => rfl
    | some plaintext' => exact absurd (ideal.only encrypted opened).1 same

variable (crypto) in
/-- The data key wrapped for one input of one purpose. -/
def Wrapped (input : Key) (purpose : String) (aad : Bytes) (dek : Key) (n c : String) : Prop :=
  ∃ kek, deriveKek crypto input purpose = .ok kek ∧ Seals crypto kek dek.1 aad n c

theorem wrapped_of_passwordWrap {account : Account} {purpose : String} {kdf : Argon2Params}
    {input dek : Key} {nonce : Option Nonce} {wrap : PasswordWrap}
    (done : passwordWrap crypto account purpose kdf input dek nonce = .ok wrap) :
    Wrapped crypto input purpose (wrapAad account purpose wrap.kdf) dek wrap.n wrap.c := by
  obtain ⟨kek, derived, rest⟩ := ok_of_bind done
  obtain ⟨sealed, isSealed, result⟩ := ok_of_bind rest
  cases result
  exact ⟨kek, derived, seals_of_sealBytes isSealed⟩

theorem keyFrom_bytes (key : Key) : keyFrom key.1 = .ok key := dif_pos key.2

theorem unwrap (ideal : Ideal crypto) {input dek : Key} {purpose : String} {aad : Bytes}
    {n c : String} (wrapped : Wrapped crypto input purpose aad dek n c) (input' : Key) :
    (do
      let kek ← deriveKek crypto input' purpose
      keyFrom (← openSealed crypto kek n c aad)) =
      if input' = input then .ok dek else .error .wrongKey := by
  obtain ⟨kek, derived, seals⟩ := wrapped
  obtain ⟨kek', expanded⟩ := isSome_iff_exists.mp
    (ideal.expands input' (domain ++ utf8 " kek " ++ utf8 purpose))
  have derived' : deriveKek crypto input' purpose = .ok kek' := by
    unfold deriveKek
    rw [expanded]
    rfl
  rw [derived']
  change (openSealed crypto kek' n c aad >>= keyFrom) = _
  rw [openSealed_of_seals ideal seals]
  by_cases same : input' = input
  · have keks : kek' = kek := by
      rw [same, derived] at derived'
      exact (Except.ok.inj derived').symm
    rw [if_pos keks, if_pos same]
    exact keyFrom_bytes dek
  · have keks : kek' ≠ kek := by
      intro equal
      rw [equal] at expanded
      exact same (ideal.injective (some_of_orElse derived) expanded)
    rw [if_neg keks, if_neg same]
    rfl

/-! ### Lists of FIDO2 wraps -/

section Fido

variable {fido : List FidoWrap} {wrap : FidoWrap} {credential : String}

theorem placeFido_cons (head : FidoWrap) (rest : List FidoWrap) :
    placeFido (head :: rest) wrap =
      if head.cred = wrap.cred then wrap :: rest else head :: placeFido rest wrap := by
  unfold placeFido
  rw [findIdx?_cons]
  by_cases here : head.cred = wrap.cred
  · simp [here]
  · cases List.findIdx? (fun other => decide (other.cred = wrap.cred)) rest <;> simp [here]

theorem find_placeFido :
    (placeFido fido wrap).find? (·.cred = credential) =
      if credential = wrap.cred then some wrap else fido.find? (·.cred = credential) := by
  induction fido with
  | nil =>
    by_cases named : credential = wrap.cred
    · simp [placeFido, named]
    · have other : wrap.cred ≠ credential := fun same => named same.symm
      simp [placeFido, named, other]
  | cons head rest ih =>
    rw [placeFido_cons]
    by_cases here : head.cred = wrap.cred
    · rw [if_pos here, find?_cons, find?_cons, here]
      by_cases named : credential = wrap.cred
      · simp [named]
      · have other : wrap.cred ≠ credential := fun same => named same.symm
        simp [named, other]
    · rw [if_neg here, find?_cons, find?_cons, ih]
      by_cases named : credential = wrap.cred
      · simp [named, here]
      · simp [named]

theorem creds_placeFido : (placeFido fido wrap).map FidoWrap.cred =
    if wrap.cred ∈ fido.map FidoWrap.cred then fido.map FidoWrap.cred
    else fido.map FidoWrap.cred ++ [wrap.cred] := by
  induction fido with
  | nil => rfl
  | cons head rest ih =>
    rw [placeFido_cons]
    by_cases here : head.cred = wrap.cred
    · simp [here]
    · have other : wrap.cred ≠ head.cred := fun same => here same.symm
      rw [if_neg here, map_cons, ih, map_cons]
      by_cases below : wrap.cred ∈ rest.map FidoWrap.cred
      · rw [if_pos below, if_pos (mem_cons_of_mem _ below)]
      · rw [if_neg below, if_neg (by simp [other, below])]
        rfl

theorem distinct_placeFido (distinct : (fido.map FidoWrap.cred).Nodup) :
    ((placeFido fido wrap).map FidoWrap.cred).Nodup := by
  rw [creds_placeFido]
  by_cases known : wrap.cred ∈ fido.map FidoWrap.cred
  · rw [if_pos known]
    exact distinct
  · rw [if_neg known]
    rw [← concat_eq_append]
    exact List.Nodup.concat known distinct

/-- Removing the place of a credential, as the wraps without it. -/
theorem eraseIdx_eq_filter {index : ℕ} (distinct : (fido.map FidoWrap.cred).Nodup)
    (found : fido.findIdx? (·.cred = credential) = some index) :
    fido.eraseIdx index = fido.filter (·.cred ≠ credential) := by
  induction fido generalizing index with
  | nil => cases found
  | cons head rest ih =>
    obtain ⟨alone, below⟩ := nodup_cons.mp distinct
    rw [findIdx?_cons] at found
    by_cases here : head.cred = credential
    · simp only [here, decide_true, if_true, Option.some.injEq] at found
      have others : ∀ other ∈ rest, other.cred ≠ credential := by
        intro other mem same
        exact alone (mem_map.mpr ⟨other, mem, same.trans here.symm⟩)
      rw [← found, eraseIdx_cons_zero, filter_cons_of_neg (by simp [here])]
      exact (filter_eq_self.mpr (by simpa using others)).symm
    · simp only [here, decide_false, Bool.false_eq_true, if_false, map_eq_some_iff] at found
      obtain ⟨place, inRest, rfl⟩ := found
      rw [eraseIdx_cons_succ, filter_cons_of_pos (by simp [here]),
        ih below inRest]

theorem find_filter_cred (other : String) :
    (fido.filter (·.cred ≠ credential)).find? (·.cred = other) =
      if other = credential then none else fido.find? (·.cred = other) := by
  rw [find?_filter]
  by_cases same : other = credential
  · simp [same]
  · rw [if_neg same]
    congr 1
    funext wrap
    by_cases named : wrap.cred = other
    · simp [named, same]
    · simp [named]

end Fido

/-! ### What is enrolled -/

inductive Operation
  | create (account : Account) (password : Bytes) (master : Argon2Params) (masterKey : Key)
      (dek : Option Key) (ctNonce wrapNonce : Option Nonce)
  | change (change : Change)

/-- The password and master key of the latest create or rotate, most recent first. -/
def latestSecret : List Operation → Option (Bytes × Key)
  | [] => none
  | .create _ password _ masterKey _ _ _ :: _ => some (password, masterKey)
  | .change (.rotate _ password _ masterKey _ _) :: _ => some (password, masterKey)
  | .change _ :: past => latestSecret past

/-- The key of the latest `addPin` not removed since. -/
def enrolledPin : List Operation → Option Key
  | [] => none
  | .create .. :: _ => none
  | .change (.addPin _ _ pinKey _) :: _ => some pinKey
  | .change (.remove .pin) :: _ => none
  | .change _ :: past => enrolledPin past

def enrolledFingerprint : List Operation → Bool
  | [] => false
  | .create .. :: _ => false
  | .change (.addFingerprint _) :: _ => true
  | .change (.remove .fingerprint) :: _ => false
  | .change _ :: past => enrolledFingerprint past

/-- The output of the latest `addFido` of a credential not removed since. -/
def enrolledFido (credential : String) : List Operation → Option Key
  | [] => none
  | .create .. :: _ => none
  | .change (.addFido _ added _ _ hmac _) :: past =>
    if credential = added then some hmac else enrolledFido credential past
  | .change (.remove (.fido removed)) :: past =>
    if credential = removed then none else enrolledFido credential past
  | .change _ :: past => enrolledFido credential past

variable (crypto) in
/-- Operations that succeed; an envelope is created before it is changed. -/
inductive Succeeds : Option Envelope → Operation → Option Envelope → Prop
  | create {before : Option Envelope} {after : Envelope} {account : Account} {password : Bytes}
      {master : Argon2Params} {masterKey : Key} {dek : Option Key}
      {ctNonce wrapNonce : Option Nonce}
      (done : create crypto account password master masterKey dek ctNonce wrapNonce =
        .ok after) :
      Succeeds before (.create account password master masterKey dek ctNonce wrapNonce)
        (some after)
  | change {before after : Envelope} {change : Change}
      (done : before.change crypto change = (.ok (), after)) :
      Succeeds (some before) (.change change) (some after)

variable (crypto) in
def enrolments : System (Option Envelope) Operation where
  init state := state = none
  step := Succeeds crypto

variable (crypto) in
/-- What a change that succeeds leaves. -/
inductive Changed (envelope : Envelope) : Change → Envelope → Prop
  | addPin {auth params pinKey nonce dek wrap} (valid : params.validate = .ok ())
      (reached : envelope.dek crypto auth = .ok dek)
      (wrapped : passwordWrap crypto envelope.account "pin" params pinKey dek nonce = .ok wrap) :
      Changed envelope (.addPin auth params pinKey nonce) (envelope.withPin (some wrap))
  | addFingerprint {auth dek} (reached : envelope.dek crypto auth = .ok dek) :
      Changed envelope (.addFingerprint auth)
        (envelope.withFingerprint (some (crypto.encode dek.1)))
  | addFido {auth credential rp salt hmac nonce dek kek sealed}
      (fields : fidoFieldsOk crypto credential rp salt = .ok ())
      (reached : envelope.dek crypto auth = .ok dek)
      (room : ¬((envelope.wraps.fido.findIdx? (·.cred = credential)).isNone ∧
        maxFidoWraps ≤ envelope.wraps.fido.length))
      (derived : deriveKek crypto hmac "fido" = .ok kek)
      (isSealed : sealBytes crypto kek dek.1 (fidoAad envelope.account credential rp salt) nonce =
        .ok sealed) :
      Changed envelope (.addFido auth credential rp salt hmac nonce) (envelope.withFido
        (placeFido envelope.wraps.fido ⟨credential, rp, salt, sealed.n, sealed.c⟩))
  | removePin : Changed envelope (.remove .pin) (envelope.withPin none)
  | removeFingerprint : Changed envelope (.remove .fingerprint) (envelope.withFingerprint none)
  | removeFido {credential index}
      (found : envelope.wraps.fido.findIdx? (·.cred = credential) = some index) :
      Changed envelope (.remove (.fido credential))
        (envelope.withFido (envelope.wraps.fido.eraseIdx index))
  | markStale : Changed envelope .markStale envelope.markStale
  | rotate {auth password master masterKey ctNonce wrapNonce dek ct wrap}
      (short : passwordOk password = .ok ()) (valid : master.validate = .ok ())
      (reached : envelope.dek crypto auth = .ok dek)
      (isSealed : sealBytes crypto dek password (ctAad envelope.account) ctNonce = .ok ct)
      (wrapped : passwordWrap crypto envelope.account "master" master masterKey dek wrapNonce =
        .ok wrap) :
      Changed envelope (.rotate auth password master masterKey ctNonce wrapNonce)
        { envelope with ct := ct, stale := false, wraps := { envelope.wraps with master := wrap } }

theorem of_require {condition : Prop} [Decidable condition] {error : Error}
    (done : require condition error = .ok ()) : condition := by
  unfold require at done
  split at done
  · next holds => exact holds
  · cases done

theorem changed_of_change {envelope after : Envelope} {change : Change}
    (done : envelope.change crypto change = (.ok (), after)) :
    Changed crypto envelope change after := by
  cases change with
  | addPin auth params pinKey nonce =>
    obtain ⟨⟨⟩, valid, rest⟩ := ok_of_bind (ok_of_assign done)
    obtain ⟨_, -, rest⟩ := ok_of_bind rest
    obtain ⟨dek, reached, rest⟩ := ok_of_bind rest
    obtain ⟨wrap, wrapped, result⟩ := ok_of_bind rest
    cases result
    exact .addPin valid reached wrapped
  | addFingerprint auth =>
    obtain ⟨dek, reached, result⟩ := ok_of_bind (ok_of_assign done)
    cases result
    exact .addFingerprint reached
  | addFido auth credential rp salt hmac nonce =>
    obtain ⟨⟨⟩, fields, rest⟩ := ok_of_bind (ok_of_assign done)
    obtain ⟨dek, reached, rest⟩ := ok_of_bind rest
    obtain ⟨⟨⟩, room, rest⟩ := ok_of_bind rest
    obtain ⟨kek, derived, rest⟩ := ok_of_bind rest
    obtain ⟨sealed, isSealed, result⟩ := ok_of_bind rest
    cases result
    exact .addFido fields reached (of_require room) derived isSealed
  | remove method =>
    cases method <;> obtain ⟨_, found, result⟩ := ok_of_bind (ok_of_assign done) <;> cases result
    · exact .removePin
    · exact .removeFingerprint
    · exact .removeFido (some_of_orElse found)
  | markStale =>
    cases done
    exact .markStale
  | rotate auth password master masterKey ctNonce wrapNonce =>
    simp only [change, Envelope.rotate] at done
    split at done
    · cases done
    · next dek resealed reseals =>
      obtain ⟨⟨⟩, short, rest⟩ := ok_of_bind reseals
      obtain ⟨⟨⟩, valid, rest⟩ := ok_of_bind rest
      obtain ⟨reached, isDek, rest⟩ := ok_of_bind rest
      obtain ⟨ct, isSealed, result⟩ := ok_of_bind rest
      cases result
      obtain ⟨wrap, wrapped, result⟩ := ok_of_bind (ok_of_assign done)
      cases result
      exact .rotate short valid isDek isSealed wrapped

/-! ### The invariant -/

variable (crypto) in
/-- A wrap of the data key in the envelope for each enrolled key, and for no other. -/
structure Enrolled (history : List Operation) (envelope : Envelope) (dek : Key)
    (password : Bytes) (masterKey : Key) : Prop where
  secret : latestSecret history = some (password, masterKey)
  ct : Seals crypto dek password (ctAad envelope.account) envelope.ct.n envelope.ct.c
  master : Wrapped crypto masterKey "master"
    (wrapAad envelope.account "master" envelope.wraps.master.kdf) dek envelope.wraps.master.n
    envelope.wraps.master.c
  pin : Option.Rel (fun key (wrap : PasswordWrap) => Wrapped crypto key "pin"
    (wrapAad envelope.account "pin" wrap.kdf) dek wrap.n wrap.c) (enrolledPin history)
    envelope.wraps.pin
  fingerprint : envelope.wraps.fingerprint =
    if enrolledFingerprint history then some (crypto.encode dek.1) else none
  fido : ∀ credential, Option.Rel (fun key (wrap : FidoWrap) => Wrapped crypto key "fido"
    (fidoAad envelope.account wrap.cred wrap.rp wrap.salt) dek wrap.n wrap.c)
    (enrolledFido credential history) (envelope.wraps.fido.find? (·.cred = credential))
  distinct : (envelope.wraps.fido.map FidoWrap.cred).Nodup

/-- The answer for one method: nothing is enrolled, or this key, or another one. -/
def answer {α : Type} (enrolled : Option Key) (key : Key) (value : α) : Except Error α :=
  match enrolled with
  | none => .error .missing
  | some known => if key = known then .ok value else .error .wrongKey

theorem answer_self {α : Type} (key : Key) (value : α) : answer (some key) key value = .ok value :=
  if_pos rfl

theorem answer_other {α : Type} {known : Key} (other : key ≠ known) (value : α) :
    answer (some known) key value = .error .wrongKey :=
  if_neg other

/-- What a method of an envelope with this history gives. -/
def answerVia {α : Type} (history : List Operation) (masterKey : Key) (value : α) :
    Via → Except Error α
  | .master key => answer (some masterKey) key value
  | .pin key => answer (enrolledPin history) key value
  | .fingerprint => if enrolledFingerprint history then .ok value else .error .missing
  | .fido credential hmac => answer (enrolledFido credential history) hmac value

section Invariant

variable {history : List Operation} {envelope after : Envelope} {dek masterKey : Key}
  {password : Bytes}

/-- Every method gives the one data key, to its own key only. -/
theorem Enrolled.dek_eq (ideal : Ideal crypto)
    (enrolled : Enrolled crypto history envelope dek password masterKey) (via : Via) :
    envelope.dek crypto via = answerVia history masterKey dek via := by
  cases via with
  | master key => exact unwrap ideal enrolled.master key
  | pin key =>
    have pin := enrolled.pin
    unfold Envelope.dek answerVia
    dsimp only
    generalize envelope.wraps.pin = wrap at pin ⊢
    generalize enrolledPin history = known at pin ⊢
    cases pin with
    | none => rfl
    | some wrapped => exact unwrap ideal wrapped key
  | fingerprint =>
    unfold Envelope.dek answerVia
    rw [enrolled.fingerprint]
    by_cases known : enrolledFingerprint history
    · rw [if_pos known, if_pos known]
      change decodeKey crypto (crypto.encode dek.1) = .ok dek
      unfold decodeKey
      rw [ideal.decodes]
      exact keyFrom_bytes dek
    · rw [if_neg known, if_neg known]
      rfl
  | fido credential hmac =>
    have fido := enrolled.fido credential
    unfold Envelope.dek answerVia
    dsimp only
    generalize envelope.wraps.fido.find? (·.cred = credential) = wrap at fido ⊢
    generalize enrolledFido credential history = known at fido ⊢
    cases fido with
    | none => rfl
    | some wrapped => exact unwrap ideal wrapped hmac

theorem eq_of_answerVia {α : Type} {value result : α} {via : Via}
    (done : answerVia history masterKey value via = .ok result) : result = value := by
  unfold answerVia answer at done
  repeat' split at done
  all_goals cases done
  all_goals rfl

/-- What follows an answer is made of its value. -/
theorem answerVia_bind {α β : Type} {value : α} {result : β} {next : α → Except Error β}
    (gives : next value = .ok result) (via : Via) :
    (answerVia history masterKey value via >>= next) = answerVia history masterKey result via := by
  unfold answerVia answer
  repeat' split
  all_goals first | exact gives | rfl

/-- Whatever authorizes an operation, the data key it reaches is the envelope's. -/
theorem Enrolled.dek_of_auth (ideal : Ideal crypto)
    (enrolled : Enrolled crypto history envelope dek password masterKey) {auth : Via}
    {reached : Key} (done : envelope.dek crypto auth = .ok reached) : reached = dek := by
  rw [enrolled.dek_eq ideal] at done
  exact eq_of_answerVia done

theorem Enrolled.openVia_eq (ideal : Ideal crypto)
    (enrolled : Enrolled crypto history envelope dek password masterKey) (via : Via) :
    envelope.openVia crypto via = answerVia history masterKey password via := by
  have opens : openSealed crypto dek envelope.ct.n envelope.ct.c (ctAad envelope.account) =
      .ok password := by
    rw [openSealed_of_seals ideal enrolled.ct, if_pos rfl]
  unfold openVia
  rw [enrolled.dek_eq ideal]
  refine answerVia_bind ?_ via
  exact opens

/-! ### What each operation keeps -/

theorem enrolled_create {account : Account} {master : Argon2Params} {drawn : Option Key}
    {ctNonce wrapNonce : Option Nonce}
    (done : create crypto account password master masterKey drawn ctNonce wrapNonce =
      .ok after) :
    ∃ dek, Enrolled crypto
      (.create account password master masterKey drawn ctNonce wrapNonce :: history) after dek
      password masterKey := by
  obtain ⟨_, _, rest⟩ := ok_of_bind done
  obtain ⟨_, _, rest⟩ := ok_of_bind rest
  obtain ⟨_, _, rest⟩ := ok_of_bind rest
  obtain ⟨dek, _, rest⟩ := ok_of_bind rest
  obtain ⟨ct, isSealed, rest⟩ := ok_of_bind rest
  obtain ⟨wrap, isWrapped, result⟩ := ok_of_bind rest
  cases result
  exact ⟨dek, rfl, seals_of_sealBytes isSealed, wrapped_of_passwordWrap isWrapped, .none, rfl,
    fun credential => .none, nodup_nil⟩

variable (ideal : Ideal crypto)
  (enrolled : Enrolled crypto history envelope dek password masterKey)

include ideal enrolled

theorem Enrolled.change {change : Change}
    (done : envelope.change crypto change = (.ok (), after)) :
    ∃ password' masterKey',
      Enrolled crypto (.change change :: history) after dek password' masterKey' := by
  cases changed_of_change done with
  | addPin valid reached wrapped =>
    obtain rfl := enrolled.dek_of_auth ideal reached
    exact ⟨_, _, { enrolled with pin := .some (wrapped_of_passwordWrap wrapped) }⟩
  | addFingerprint reached =>
    obtain rfl := enrolled.dek_of_auth ideal reached
    exact ⟨_, _, { enrolled with fingerprint := rfl }⟩
  | @addFido auth credential rp salt hmac nonce _ kek sealed _ reached _ derived isSealed =>
    obtain rfl := enrolled.dek_of_auth ideal reached
    refine ⟨_, _, { enrolled with
      fido := fun other => ?_, distinct := distinct_placeFido enrolled.distinct }⟩
    have before := enrolled.fido other
    change Option.Rel _ (if other = credential then some hmac else enrolledFido other history)
      ((placeFido envelope.wraps.fido ⟨credential, rp, salt, sealed.n, sealed.c⟩).find? _)
    rw [find_placeFido]
    by_cases named : other = credential
    · rw [if_pos named, if_pos named]
      exact .some ⟨kek, derived, seals_of_sealBytes isSealed⟩
    · rw [if_neg named, if_neg named]
      exact before
  | removePin => exact ⟨_, _, { enrolled with pin := .none }⟩
  | removeFingerprint => exact ⟨_, _, { enrolled with fingerprint := rfl }⟩
  | @removeFido credential index found =>
    have erased := eraseIdx_eq_filter enrolled.distinct found
    refine ⟨_, _, { enrolled with
      fido := fun other => ?_
      distinct := enrolled.distinct.sublist ((eraseIdx_sublist _ index).map _) }⟩
    have before := enrolled.fido other
    change Option.Rel _ (if other = credential then none else enrolledFido other history)
      ((envelope.wraps.fido.eraseIdx index).find? _)
    rw [erased, find_filter_cred]
    by_cases named : other = credential
    · rw [if_pos named, if_pos named]
      exact .none
    · rw [if_neg named, if_neg named]
      exact before
  | markStale => exact ⟨_, _, { enrolled with }⟩
  | rotate short valid reached isSealed wrapped =>
    obtain rfl := enrolled.dek_of_auth ideal reached
    exact ⟨_, _, { enrolled with
      secret := rfl
      ct := seals_of_sealBytes isSealed
      master := wrapped_of_passwordWrap wrapped }⟩

end Invariant

theorem run_enrolled (ideal : Ideal crypto) {history : List Operation} {state : Option Envelope}
    (run : Run (enrolments crypto) history state) : ∀ envelope, state = some envelope →
      ∃ dek password masterKey, Enrolled crypto history envelope dek password masterKey := by
  induction run with
  | start initial =>
    intro envelope isSome
    rw [show _ = none from initial] at isSome
    cases isSome
  | next run step ih =>
    intro envelope isSome
    subst isSome
    cases step with
    | create done =>
      obtain ⟨dek, enrolled⟩ := enrolled_create done
      exact ⟨dek, _, _, enrolled⟩
    | change done =>
      obtain ⟨dek, password, masterKey, enrolled⟩ := ih _ rfl
      exact ⟨dek, enrolled.change ideal done⟩

/-- After any successful operations each method answers for the password last sealed: to
the enrolled key with the password, to any other with a refusal, and as missing where
nothing is enrolled. -/
theorem enrolled_methods_open (ideal : Ideal crypto) {history : List Operation}
    {envelope : Envelope} (run : Run (enrolments crypto) history (some envelope)) :
    ∃ password masterKey, latestSecret history = some (password, masterKey) ∧
      (∀ key, envelope.openVia crypto (.master key) =
        if key = masterKey then .ok password else .error .wrongKey) ∧
      (∀ key, envelope.openVia crypto (.pin key) = answer (enrolledPin history) key password) ∧
      (envelope.openVia crypto .fingerprint =
        if enrolledFingerprint history then .ok password else .error .missing) ∧
      ∀ credential hmac, envelope.openVia crypto (.fido credential hmac) =
        answer (enrolledFido credential history) hmac password := by
  obtain ⟨dek, password, masterKey, enrolled⟩ := run_enrolled ideal run envelope rfl
  have opens := enrolled.openVia_eq ideal
  exact ⟨password, masterKey, enrolled.secret, fun key => opens (.master key),
    fun key => opens (.pin key), opens .fingerprint,
    fun credential hmac => opens (.fido credential hmac)⟩

/-! ### A sample -/

section Sample

/-- Associated data that ends where it says. -/
def framed (aad : Bytes) : Bytes := aad.flatMap (fun byte => [1, byte]) ++ [0]

theorem eq_of_framed_prefix {aad aad' rest : Bytes} (starts : framed aad' <+: framed aad ++ rest) :
    aad' = aad := by
  induction aad generalizing aad' with
  | nil =>
    cases aad' with
    | nil => rfl
    | cons byte bytes => simp [framed] at starts
  | cons byte bytes ih =>
    cases aad' with
    | nil => simp [framed] at starts
    | cons byte' bytes' =>
      have split : ∀ first (others : Bytes),
          framed (first :: others) = 1 :: first :: framed others := fun _ _ => rfl
      rw [split, split, cons_append, cons_append, cons_prefix_cons,
        cons_prefix_cons] at starts
      rw [starts.2.1, ih starts.2.2]

/-- A cipher whose ciphertext names what it was sealed with, and stand-ins for the rest. -/
def labelledCrypto : Crypto where
  encrypt key nonce plaintext aad := some (key.1 ++ nonce.1 ++ framed aad ++ plaintext)
  decrypt key nonce c aad :=
    if key.1 ++ nonce.1 ++ framed aad <+: c then
      some (c.drop (key.1 ++ nonce.1 ++ framed aad).length)
    else none
  expand input _ := some input
  encode bytes := String.ofList (bytes.map fun byte => Char.ofNat byte.toNat)
  decode text := some (text.toList.map fun char => UInt8.ofNat char.toNat)

theorem ofNat_toNat_char (byte : UInt8) : UInt8.ofNat (Char.ofNat byte.toNat).toNat = byte := by
  have small : byte.toNat < 256 := byte.toNat_lt
  rw [toNat_ofNat (by omega), UInt8.ofNat_toNat]

theorem ideal_labelledCrypto : Ideal labelledCrypto where
  opens := by
    intro key nonce plaintext aad c encrypted
    cases encrypted
    change (if _ then _ else _) = _
    rw [if_pos (prefix_append _ _), drop_left]
  only := by
    intro key nonce plaintext aad c key' nonce' aad' opened encrypted decrypted
    cases encrypted
    by_cases starts : key'.1 ++ nonce'.1 ++ framed aad' <+:
        key.1 ++ nonce.1 ++ framed aad ++ plaintext
    · obtain ⟨rest, equal⟩ := starts
      simp only [append_assoc] at equal
      obtain ⟨keys, below⟩ := append_inj equal (key'.2.trans key.2.symm)
      obtain ⟨nonces, framings⟩ := append_inj below (nonce'.2.trans nonce.2.symm)
      exact ⟨Subtype.ext keys, Subtype.ext nonces, eq_of_framed_prefix ⟨rest, framings⟩⟩
    · have refused : labelledCrypto.decrypt key' nonce'
          (key.1 ++ nonce.1 ++ framed aad ++ plaintext) aad' = none := if_neg starts
      rw [refused] at decrypted
      cases decrypted
  expands := fun _ _ => rfl
  injective := by
    intro input input' info kek expanded expanded'
    cases expanded
    cases expanded'
    rfl
  decodes := by
    intro bytes
    simp [labelledCrypto, Function.comp_def, ofNat_toNat_char]

def constantKey (byte : UInt8) : Key := ⟨List.replicate keyLen byte, length_replicate⟩

def constantNonce (byte : UInt8) : Nonce := ⟨List.replicate nonceLen byte, length_replicate⟩

def sampleParams : Argon2Params := ⟨"argon2id", "c2FsdHNhbHRzYWx0c2FsdA==", 262144, 4, 1⟩

def sampleAccount : Account := ⟨"user", "server"⟩

/-- A PIN enrolled through the master key. -/
def sampleHistory : List Operation :=
  [.change (.addPin (.master (constantKey 2)) sampleParams (constantKey 3)
      (some (constantNonce 2))),
    .create sampleAccount [1, 2] sampleParams (constantKey 2) (some (constantKey 1))
      (some (constantNonce 0)) (some (constantNonce 1))]

theorem addPin_eq {envelope : Envelope} {auth : Via} {params : Argon2Params} {pinKey dek : Key}
    {nonce : Option Nonce} {wrap : PasswordWrap} (valid : params.validate = .ok ())
    (floor : pinArgon2MinMemoryKib ≤ params.m ∧ pinArgon2MinIterations ≤ params.t)
    (reached : envelope.dek crypto auth = .ok dek)
    (wrapped : passwordWrap crypto envelope.account "pin" params pinKey dek nonce = .ok wrap) :
    envelope.addPin crypto auth params pinKey nonce = (.ok (), envelope.withPin (some wrap)) := by
  have floored : require (pinArgon2MinMemoryKib ≤ params.m ∧ pinArgon2MinIterations ≤ params.t)
      .policy = .ok () := if_pos floor
  unfold addPin
  rw [valid, floored, reached]
  change envelope.assign (passwordWrap crypto envelope.account "pin" params pinKey dek nonce >>=
    fun wrap => pure (envelope.withPin (some wrap))) = _
  rw [wrapped]
  rfl

theorem run_sampleHistory :
    ∃ envelope, Run (enrolments labelledCrypto) sampleHistory (some envelope) := by
  have valid : sampleParams.validate = .ok () := by decide +kernel
  have accountValid : sampleAccount.validate = .ok () := by decide +kernel
  obtain ⟨created, done⟩ : ∃ created, create labelledCrypto sampleAccount [1, 2]
      sampleParams (constantKey 2) (some (constantKey 1)) (some (constantNonce 0))
      (some (constantNonce 1)) = .ok created := by
    unfold create
    rw [accountValid, valid]
    exact ⟨_, rfl⟩
  obtain ⟨dek, enrolled⟩ := @enrolled_create labelledCrypto [] _ _ _ _ _ _ _ _ done
  have reached : created.dek labelledCrypto (.master (constantKey 2)) = .ok dek := by
    rw [enrolled.dek_eq ideal_labelledCrypto]
    exact answer_self (constantKey 2) dek
  have pinned := @addPin_eq labelledCrypto created _ _ (constantKey 3) dek
    (some (constantNonce 2)) _ valid (by decide) reached rfl
  exact ⟨_, .next (.next (.start rfl) (.create done)) (.change pinned)⟩

theorem enrolled_methods_open_sample :
    ∃ envelope, Run (enrolments labelledCrypto) sampleHistory (some envelope) ∧
      envelope.openVia labelledCrypto (.master (constantKey 2)) = .ok [1, 2] ∧
      envelope.openVia labelledCrypto (.pin (constantKey 3)) = .ok [1, 2] ∧
      envelope.openVia labelledCrypto (.pin (constantKey 2)) = .error .wrongKey ∧
      envelope.openVia labelledCrypto .fingerprint = .error .missing := by
  obtain ⟨envelope, run⟩ := run_sampleHistory
  obtain ⟨password, masterKey, secret, master, pin, fingerprint, _⟩ :=
    enrolled_methods_open ideal_labelledCrypto run
  cases secret
  refine ⟨envelope, run, ?_, ?_, ?_, fingerprint⟩
  · rw [master, if_pos rfl]
  · rw [pin]
    exact answer_self (constantKey 3) _
  · have other : constantKey 2 ≠ constantKey 3 := by decide
    rw [pin]
    exact answer_other other _

end Sample

end QsBitwarden.UnlockKey
