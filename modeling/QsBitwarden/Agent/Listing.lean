import Mathlib.Data.Option.Basic
import Mathlib.Algebra.Order.BigOperators.Group.List
import Mathlib.Algebra.Order.Ring.Nat
import Mathlib.Data.String.Basic
import QsBitwarden.Agent.Load

/-! Owns the listing of published keys: what a client reads from an identities reply, the
size of that reply, and when the keys of a load can be listed. It does not own who may ask
for a listing. -/

namespace QsBitwarden.Agent

open Lib List Option PublicIdentity

/-! ### The reply as a client reads it -/

def readIdentities : ℕ → Bytes → Option (List (Bytes × String) × Bytes)
  | 0, fields => some ([], fields)
  | count + 1, fields => do
      let (blob, fields) ← readString fields
      let (comment, fields) ← readString fields
      let comment ← String.fromUTF8? ⟨comment.toArray⟩
      let (identities, fields) ← readIdentities count fields
      pure ((blob, comment) :: identities, fields)

/-- An identities answer per the agent protocol: the frame's length, the message type, a
count and that many key blobs and comments, with nothing after them. -/
def decodeIdentities (frame : Bytes) : Option (List (Bytes × String)) := do
  let (declared, payload) ← readU32 frame
  guard (payload.length = declared)
  let (kind, fields) ← readU8 payload
  guard (kind = identitiesAnswerByte)
  let (count, fields) ← readU32 fields
  let (identities, fields) ← readIdentities count fields
  guard (fields = [])
  pure identities

/-- A client that asks gets these identities. -/
def Listable (identities : List (Bytes × String)) : Prop :=
  identitiesResponse identities ≠ failureResponse ∧
    decodeIdentities (identitiesResponse identities) = some identities

/-! ### The size of a listing -/

def identityBytes (identity : Bytes × String) : Bytes :=
  putString identity.1 ++ putString identity.2.toUTF8.toList

def identitySize (identity : Bytes × String) : ℕ := 8 + identity.1.length + identity.2.utf8ByteSize

def listingSize (identities : List (Bytes × String)) : ℕ := 5 + (identities.map identitySize).sum

theorem identityBytes_length (identity : Bytes × String) :
    (identityBytes identity).length = identitySize identity := by
  rw [identityBytes, identitySize, length_append, putString_length, putString_length,
    toUTF8_toList_length]
  omega

theorem flatMap_identityBytes_length (identities : List (Bytes × String)) :
    (identities.flatMap identityBytes).length = (identities.map identitySize).sum := by
  induction identities with
  | nil => rfl
  | cons identity rest ih =>
    rw [flatMap_cons, length_append, identityBytes_length, ih,
      map_cons, sum_cons]

variable {identities : List (Bytes × String)}

/-- The loop of `identities_response` stops once the limit is passed; as the payload only
grows, that is so exactly when the whole of it passes the limit. -/
theorem identitiesPayload_eq {payload : Bytes} (fits : payload.length ≤ maxFrameLen) :
    identitiesPayload payload identities =
      if (payload ++ identities.flatMap identityBytes).length ≤ maxFrameLen then
        some (payload ++ identities.flatMap identityBytes)
      else none := by
  induction identities generalizing payload with
  | nil => rw [identitiesPayload, flatMap_nil, append_nil, if_pos fits]
  | cons identity rest ih =>
    obtain ⟨blob, comment⟩ := identity
    have grouped : payload ++ putString blob ++ putString comment.toUTF8.toList =
        payload ++ identityBytes (blob, comment) := by
      rw [identityBytes, append_assoc]
    rw [identitiesPayload, flatMap_cons, ← append_assoc, grouped]
    by_cases grown : (payload ++ identityBytes (blob, comment)).length ≤ maxFrameLen
    · rw [if_neg (Nat.not_lt.mpr grown), ih grown]
    · rw [if_pos (Nat.lt_of_not_le grown), if_neg]
      rw [length_append]
      omega

def listingPayload (identities : List (Bytes × String)) : Bytes :=
  identitiesAnswerByte :: putU32 identities.length ++ identities.flatMap identityBytes

theorem listingPayload_length (identities : List (Bytes × String)) :
    (listingPayload identities).length = listingSize identities := by
  rw [listingPayload, length_append, flatMap_identityBytes_length]
  rfl

theorem identitiesResponse_eq (identities : List (Bytes × String)) :
    identitiesResponse identities =
      if listingSize identities ≤ maxFrameLen then
        putU32 (listingSize identities) ++ listingPayload identities
      else failureResponse := by
  have start : (identitiesAnswerByte :: putU32 identities.length).length ≤ maxFrameLen := by
    show 5 ≤ maxFrameLen
    decide
  unfold identitiesResponse
  rw [identitiesPayload_eq start, ← listingPayload, listingPayload_length]
  by_cases fits : listingSize identities ≤ maxFrameLen
  · rw [if_pos fits, if_pos fits]
    dsimp only
    rw [response, listingPayload_length, if_neg (Nat.not_lt.mpr fits)]
  · rw [if_neg fits, if_neg fits]

/-! ### Reading a listing back -/

theorem readIdentities_flatMap (rest : Bytes)
    (small : (identities.map identitySize).sum < 4294967296) :
    readIdentities identities.length (identities.flatMap identityBytes ++ rest) =
      some (identities, rest) := by
  induction identities with
  | nil => rfl
  | cons identity others ih =>
    obtain ⟨blob, comment⟩ := identity
    rw [map_cons, sum_cons, identitySize] at small
    have blobSmall : blob.length < 4294967296 := by
      dsimp only at small
      omega
    have commentSmall : comment.toUTF8.toList.length < 4294967296 := by
      rw [toUTF8_toList_length]
      dsimp only at small
      omega
    rw [length_cons, readIdentities, flatMap_cons, identityBytes, append_assoc,
      append_assoc]
    refine readString_bind_iff.mpr ⟨blob, _, blobSmall, rfl, ?_⟩
    refine readString_bind_iff.mpr ⟨_, _, commentSmall, rfl, ?_⟩
    refine bind_eq_some_iff.mpr ⟨comment, fromUTF8_toUTF8_toList comment, ?_⟩
    exact bind_eq_some_iff.mpr ⟨_, ih (by omega), rfl⟩

theorem length_le_listingSize (identities : List (Bytes × String)) :
    identities.length ≤ listingSize identities := by
  induction identities with
  | nil => exact Nat.zero_le _
  | cons identity rest ih =>
    rw [listingSize] at ih ⊢
    rw [length_cons, map_cons, sum_cons, identitySize]
    omega

theorem decodeIdentities_listing (fits : listingSize identities ≤ maxFrameLen) :
    decodeIdentities (putU32 (listingSize identities) ++ listingPayload identities) =
      some identities := by
  have many := length_le_listingSize identities
  unfold maxFrameLen at fits
  have total : (identities.map identitySize).sum < 4294967296 := by
    rw [listingSize] at fits
    omega
  have readBody := readIdentities_flatMap [] total
  rw [append_nil] at readBody
  unfold decodeIdentities
  refine bind_eq_some_iff.mpr ⟨_, readU32_eq_some_iff.mpr ⟨by omega, rfl⟩, ?_⟩
  refine guard_bind_iff.mpr ⟨listingPayload_length _, ?_⟩
  refine readU8_bind_iff.mpr ⟨_, _, rfl, ?_⟩
  refine guard_bind_iff.mpr ⟨rfl, ?_⟩
  refine bind_eq_some_iff.mpr ⟨_, readU32_eq_some_iff.mpr ⟨by omega, rfl⟩, ?_⟩
  refine bind_eq_some_iff.mpr ⟨_, readBody, ?_⟩
  exact guard_bind_iff.mpr ⟨rfl, rfl⟩

/-- Keys can be listed exactly when their blobs and names fit one frame. -/
theorem listable_iff (identities : List (Bytes × String)) :
    Listable identities ↔ listingSize identities ≤ maxFrameLen := by
  unfold Listable
  rw [identitiesResponse_eq]
  constructor
  · rintro ⟨answered, -⟩
    by_contra large
    rw [if_neg large] at answered
    exact answered rfl
  · intro fits
    rw [if_pos fits]
    have read := decodeIdentities_listing fits
    refine ⟨fun failed => ?_, read⟩
    have unread : decodeIdentities failureResponse = none := by decide
    rw [failed, unread] at read
    cases read

/-! ### What a load publishes -/

variable {ssh : SshKeyCrate}

def PublicIdentity.listed (record : PublicIdentity) : Bytes × String :=
  (record.publicBlob, record.name)

variable (ssh) in
/-- The check of `add` on RSA key material, which an encrypted key does not have. -/
def RsaChecked (key : ssh.PrivateKey) : Prop :=
  ∀ keypair, ssh.keyData key = .rsa keypair → (rsaPrivateKey ssh keypair).isSome = true

variable (ssh) in
/-- A key whose private part the crate could read: it is not encrypted. -/
def Plain (key : ssh.PrivateKey) : Prop :=
  match ssh.keyData key with
  | .ed25519 => True
  | .rsa _ => True
  | .other => False

/-- The longest public key of a readable private key: RSA with a modulus of 4096 bits and
an exponent below 2^33, the limits of the `rsa` crate. -/
def maxPlainBlob : ℕ := 537

variable (ssh) in
/-- What the crates promise about keys they could read and check. -/
def PlainBlobsBounded : Prop :=
  ∀ key blob, Plain ssh key → RsaChecked ssh key → ssh.toBytes (ssh.publicKey key) = some blob →
    blob.length ≤ maxPlainBlob

theorem fitting_size (budget : ℕ) (chars : List Char) :
    String.utf8Len (fitting budget chars) ≤ budget := by
  induction chars generalizing budget with
  | nil => exact Nat.zero_le _
  | cons c rest ih =>
    rw [fitting]
    split_ifs with fits
    · rw [String.utf8Len_cons]
      have following := ih (budget - c.utf8Size)
      omega
    · exact Nat.zero_le _

theorem truncateName_size (name : String) :
    (truncateName name).utf8ByteSize ≤ maxMetadataBytes := by
  unfold truncateName
  split_ifs with long
  · rw [String.utf8ByteSize_ofList]
    exact fitting_size _ _
  · exact Nat.le_of_not_lt long

variable {load : CandidateLoad ssh}

theorem CandidateLoad.vet_eq_ok {item : CandidateItem}
    {vetted : Vetted ssh} (passed : load.vet item = .ok vetted) :
    vetted.record.name = truncateName item.name ∧ RsaChecked ssh vetted.key := by
  unfold vet at passed
  split at passed
  · cases passed
  · split at passed
    · cases passed
    · next key read =>
      by_cases checked : RsaChecked ssh key
      · -- The other checks are of the public parts; the record is the last branch's.
        repeat' split at passed
        all_goals first
          | cases passed; done
          | (obtain rfl := Except.ok.inj passed; exact ⟨rfl, checked⟩)
      · simp only [RsaChecked, not_forall] at checked
        obtain ⟨keypair, material, refused⟩ := checked
        have refused : (rsaPrivateKey ssh keypair).isNone = true := by simpa using refused
        simp only [material, refused, if_true] at passed
        split at passed <;> cases passed

/-- What every accepted item keeps: the limits on single items bound the whole set. -/
structure CandidateLoad.InLimits (load : CandidateLoad ssh) : Prop where
  few : load.keys.publicSet.length ≤ load.seenItems
  room : load.seenItems ≤ maxKeys
  names : ∀ record ∈ load.keys.publicSet, record.name.utf8ByteSize ≤ maxMetadataBytes
  owned : ∀ record ∈ load.keys.publicSet, ∃ identity ∈ load.keys.privateSet,
    ssh.toBytes (ssh.publicKey identity.key) = some record.publicBlob ∧
      RsaChecked ssh identity.key

theorem CandidateLoad.InLimits.add {after : CandidateLoad ssh} {item : CandidateItem}
    {skip : Option SkipCode} (limits : load.InLimits) (added : load.add item = (.ok skip, after)) :
    after.InLimits := by
  have counted (room : load.seen.seenItems ≤ maxKeys) :
      load.seen.seenItems = load.seenItems + 1 := by
    have bounded := limits.room
    unfold maxKeys at bounded
    show min (load.seenItems + 1) u64Max = load.seenItems + 1
    unfold u64Max
    omega
  have outcome := load.add_outcome item
  rw [added] at outcome
  cases outcome with
  | skipped code room =>
    have one := counted room
    refine ⟨?_, room, limits.names, limits.owned⟩
    show load.keys.publicSet.length ≤ load.seen.seenItems
    have few := limits.few
    omega
  | added vetted room passed =>
    have one := counted room
    obtain ⟨named, checked⟩ := CandidateLoad.vet_eq_ok passed
    constructor
    · show (load.keys.publicSet ++ [vetted.record]).length ≤ load.seen.seenItems
      rw [length_append, length_singleton]
      have few := limits.few
      omega
    · exact room
    · intro record mem
      rcases mem_append.mp mem with old | new
      · exact limits.names record old
      · rw [mem_singleton.mp new, named]
        exact truncateName_size _
    · intro record mem
      rcases mem_append.mp mem with old | new
      · obtain ⟨identity, kept, own⟩ := limits.owned record old
        exact ⟨identity, mem_append_left _ kept, own⟩
      · rw [mem_singleton.mp new]
        exact ⟨_, mem_append_right _ (mem_singleton_self _), vetted.own, checked⟩

theorem CandidateLoad.InLimits.addAll {after : CandidateLoad ssh}
    {items : List CandidateItem} (limits : load.InLimits)
    (added : addAll load items = (.ok (), after)) :
    after.InLimits := by
  induction items generalizing load with
  | nil =>
    cases added
    exact limits
  | cons item rest ih =>
    unfold Agent.addAll at added
    split at added
    · next skip step once => exact ih (limits.add once) added
    · cases added

theorem KeyStore.beginLoad_limits {store opened : KeyStore ssh} {epoch filteredBytes : ℕ}
    {candidate : CandidateLoad ssh}
    (begun : store.beginLoad epoch filteredBytes = (.ok candidate, opened)) :
    candidate.InLimits := by
  have outcome := store.beginLoad_outcome epoch filteredBytes
  rw [begun] at outcome
  cases outcome with
  | begun newer => exact ⟨Nat.le_refl _, Nat.zero_le _, by simp [KeySet.empty],
      by simp [KeySet.empty]⟩

/-! ### Published keys can be listed -/

theorem listingSize_le {bound : ℕ}
    (bounded : ∀ identity ∈ identities, identitySize identity ≤ bound) :
    listingSize identities ≤ 5 + identities.length * bound := by
  have total : (identities.map identitySize).sum ≤
      (identities.map identitySize).length • bound := by
    apply sum_le_card_nsmul
    intro size mem
    obtain ⟨identity, kept, rfl⟩ := mem_map.mp mem
    exact bounded identity kept
  rw [length_map, nsmul_eq_mul, Nat.cast_id] at total
  rw [listingSize]
  omega

theorem CandidateLoad.InLimits.listable (limits : load.InLimits) (crates : PlainBlobsBounded ssh)
    (plain : ∀ identity ∈ load.keys.privateSet, Plain ssh identity.key) :
    Listable (load.keys.publicSet.map listed) := by
  have sizes : ∀ identity ∈ load.keys.publicSet.map listed,
      identitySize identity ≤ 8 + maxPlainBlob + maxMetadataBytes := by
    intro identity mem
    obtain ⟨record, kept, rfl⟩ := mem_map.mp mem
    obtain ⟨identity, owner, own, checked⟩ := limits.owned record kept
    have blob := crates identity.key record.publicBlob (plain identity owner) checked own
    have name := limits.names record kept
    show 8 + record.publicBlob.length + record.name.utf8ByteSize ≤ _
    omega
  have few := Nat.le_trans limits.few limits.room
  have total := listingSize_le sizes
  rw [length_map] at total
  apply (listable_iff _).mpr
  unfold maxFrameLen
  unfold maxKeys at few
  unfold maxPlainBlob maxMetadataBytes at total
  omega

/-- The keys of a published load can be listed, and are read back in order, exactly when
they fit one frame. They do if none of them is encrypted. -/
theorem published_listable {store opened current after : KeyStore ssh} {epoch filteredBytes : ℕ}
    {items : List CandidateItem} {candidate loaded : CandidateLoad ssh} {report : LoadReport}
    (begun : store.beginLoad epoch filteredBytes = (.ok candidate, opened))
    (added : addAll candidate items = (.ok (), loaded))
    (published : current.publish loaded = (.ok report, after)) :
    (Listable (after.publicIdentities.map PublicIdentity.listed) ↔
      listingSize (loaded.keys.publicSet.map PublicIdentity.listed) ≤ maxFrameLen) ∧
    (PlainBlobsBounded ssh → (∀ identity ∈ after.keys.privateSet, Plain ssh identity.key) →
      Listable (after.publicIdentities.map PublicIdentity.listed)) := by
  have outcome := current.publish_outcome loaded
  rw [published] at outcome
  cases outcome with
  | published _ sound same loading =>
    have limits := (KeyStore.beginLoad_limits begun).addAll added
    exact ⟨listable_iff _, fun crates plain => limits.listable crates plain⟩

/-- One readable key is published and listed. -/
theorem published_listable_sample :
    ∃ (opened after : KeyStore sampleCrate) (candidate loaded : CandidateLoad sampleCrate)
      (report : LoadReport),
      KeyStore.new.beginLoad 1 100 = (.ok candidate, opened) ∧
      addAll candidate [sampleItem] = (.ok (), loaded) ∧
      opened.publish loaded = (.ok report, after) ∧
      after.publicIdentities.map PublicIdentity.listed = [([1], "name")] ∧
      Listable (after.publicIdentities.map PublicIdentity.listed) := by
  let candidate : CandidateLoad sampleCrate := ⟨1, 0, false, .empty, []⟩
  let loaded : CandidateLoad sampleCrate := (candidate.add sampleItem).2
  have begun : (KeyStore.new : KeyStore sampleCrate).beginLoad 1 100 =
      (.ok candidate, ⟨⟨1, .loading⟩, .empty⟩) := rfl
  have added : addAll candidate [sampleItem] = (.ok (), loaded) := rfl
  have published : KeyStore.publish ⟨⟨1, .loading⟩, .empty⟩ loaded =
      (.ok ⟨1, []⟩, ⟨⟨1, .unlocked⟩, loaded.keys⟩) := rfl
  refine ⟨_, _, candidate, loaded, _, begun, added, published, by decide, ?_⟩
  exact (published_listable begun added published).1.mpr (by decide)

/-! ### Encrypted keys -/

/-- A modulus of 16384 bits, with the zero byte of a positive number. -/
def largeModulus (number : ℕ) : Bytes := 0 :: UInt8.ofNat (128 + number) :: List.replicate 2047 0

theorem largeModulus_length (number : ℕ) : (largeModulus number).length = 2049 := by
  rw [largeModulus, length_cons, length_cons, length_replicate]

/-- The public key blob of an RSA key of 16384 bits. -/
def largeRsaBlob (number : ℕ) : Bytes :=
  putString (ascii "ssh-rsa") ++ (putString [1, 0, 1] ++ putString (largeModulus number))

theorem largeRsaBlob_length (number : ℕ) : (largeRsaBlob number).length = 2071 := by
  rw [largeRsaBlob, length_append, length_append, putString_length, putString_length,
    putString_length, largeModulus_length]
  rfl

/-- Passphrase-protected RSA keys, as `from_openssh` returns them: the public key is known,
the key material is not. -/
def encryptedCrate : SshKeyCrate where
  PrivateKey := ℕ
  PublicKey := ℕ
  RsaKeypair := Unit
  RsaPrivateKey := Unit
  Signature := Bytes
  fromOpenssh pem := pem.head?.map UInt8.toNat
  algorithm _ := .rsa
  keyData _ := .other
  publicKey key := key
  publicFromOpenssh text := some text.length
  toBytes key := some (largeRsaBlob key)
  fingerprint _ := "SHA256:"
  toOpenssh _ := some "ssh-rsa"
  fromComponents _ := none
  size _ := 0
  trySign _ _ := none
  pkcs1v15Sign _ _ _ := none
  newRsaSignature _ _ := none
  signatureBytes := some

def encryptedItem (number : ℕ) : CandidateItem :=
  ⟨"item", "key", [UInt8.ofNat number], String.ofList (List.replicate number 'k'), "SHA256:",
    false⟩

def encryptedRecord (number : ℕ) : PublicIdentity :=
  ⟨"item", "key", "SHA256:", "ssh-rsa", largeRsaBlob number⟩

theorem largeRsaBlob_inj {first second : ℕ} (firstSmall : first < 128) (secondSmall : second < 128)
    (same : largeRsaBlob first = largeRsaBlob second) : first = second := by
  have fields := append_cancel_left (append_cancel_left same)
  have modulus := List.cons.inj (List.cons.inj (append_inj fields rfl).2).2
  have byte := congrArg UInt8.toNat modulus.1
  rw [UInt8.toNat_ofNat', UInt8.toNat_ofNat'] at byte
  omega

theorem vet_encryptedItem {load : CandidateLoad encryptedCrate} {number : ℕ} (small : number < 128)
    (fresh : ∀ record ∈ load.keys.publicSet, record.publicBlob ≠ largeRsaBlob number) :
    load.vet (encryptedItem number) = .ok ⟨number, encryptedRecord number, rfl⟩ := by
  have read : encryptedCrate.fromOpenssh (encryptedItem number).privateKeyPem = some number := by
    show some (UInt8.ofNat number).toNat = some number
    rw [UInt8.toNat_ofNat', Nat.mod_eq_of_lt (by omega)]
  have metadata : encryptedCrate.publicFromOpenssh (encryptedItem number).publicKey =
      some number := by
    show some (String.ofList (List.replicate number 'k')).length = some number
    rw [String.length_ofList, length_replicate]
  have unloaded : (load.keys.publicSet.any
      fun identity => identity.publicBlob = largeRsaBlob number) = false := by
    rw [List.any_eq_false]
    intro record mem
    simpa using fresh record mem
  have named : truncateName "key" = "key" := by decide
  unfold CandidateLoad.vet
  refine (if_neg Bool.false_ne_true).trans ?_
  rw [read]
  refine (if_neg fun other => by cases other).trans ?_
  refine (if_neg Bool.false_ne_true).trans ?_
  rw [metadata]
  refine (if_neg (not_not.mpr rfl)).trans ?_
  refine (if_neg (not_not.mpr rfl)).trans ?_
  refine (if_neg (ne_true_of_eq_false unloaded)).trans ?_
  show Except.ok _ = Except.ok _
  simp only [encryptedItem, named, encryptedRecord]
  rfl

/-- Every encrypted key of a list of distinct numbers is accepted. -/
theorem addAll_encryptedItem {load : CandidateLoad encryptedCrate} {numbers : List ℕ}
    (distinct : numbers.Nodup) (small : ∀ number ∈ numbers, number < 128)
    (fresh : ∀ record ∈ load.keys.publicSet, ∀ number ∈ numbers,
      record.publicBlob ≠ largeRsaBlob number)
    (room : load.seenItems + numbers.length ≤ maxKeys) :
    ∃ loaded, addAll load (numbers.map encryptedItem) = (.ok (), loaded) ∧
      loaded.failed = load.failed ∧ loaded.epoch = load.epoch ∧
      loaded.keys.publicSet = load.keys.publicSet ++ numbers.map encryptedRecord := by
  induction numbers generalizing load with
  | nil => exact ⟨load, rfl, rfl, rfl, (append_nil _).symm⟩
  | cons number rest ih =>
    rw [length_cons] at room
    have numberSmall := small number mem_cons_self
    have counted : satAdd load.seenItems 1 = load.seenItems + 1 := by
      unfold maxKeys at room
      unfold satAdd u64Max
      omega
    have vetted := @vet_encryptedItem load.seen number numberSmall
      fun record mem => fresh record mem number mem_cons_self
    let loaded : CandidateLoad encryptedCrate :=
      { load.seen with keys := load.keys.push number (encryptedRecord number) rfl }
    have added : load.add (encryptedItem number) = (.ok none, loaded) := by
      unfold CandidateLoad.add
      dsimp only
      rw [if_neg (by rw [counted]; omega), if_neg (by show ¬1 > maxPemBytes; decide),
        if_neg (by show ¬"item".utf8ByteSize > maxMetadataBytes; decide)]
      rw [CandidateLoad.seen] at vetted
      rw [vetted]
      rfl
    have stillFresh : ∀ record ∈ loaded.keys.publicSet, ∀ other ∈ rest,
        record.publicBlob ≠ largeRsaBlob other := by
      intro record mem other later
      rcases mem_append.mp mem with old | new
      · exact fresh record old other (mem_cons_of_mem _ later)
      · rw [mem_singleton.mp new]
        intro same
        have repeated := largeRsaBlob_inj numberSmall
          (small other (mem_cons_of_mem _ later)) same
        rw [← repeated] at later
        exact (nodup_cons.mp distinct).1 later
    have stillRoom : loaded.seenItems + rest.length ≤ maxKeys := by
      show satAdd load.seenItems 1 + rest.length ≤ maxKeys
      rw [counted]
      omega
    obtain ⟨after, all, sound, epoch, records⟩ := ih distinct.of_cons
      (fun other mem => small other (mem_cons_of_mem _ mem)) stillFresh stillRoom
    refine ⟨after, ?_, sound, epoch, ?_⟩
    · rw [map_cons, addAll, added]
      exact all
    · rw [records]
      exact append_assoc _ _ _

theorem listingSize_encryptedRecord (numbers : List ℕ) :
    listingSize ((numbers.map encryptedRecord).map listed) =
      5 + numbers.length * 2082 := by
  have size (number : ℕ) : identitySize (encryptedRecord number).listed = 2082 := by
    show 8 + (largeRsaBlob number).length + "key".utf8ByteSize = 2082
    rw [largeRsaBlob_length]
    rfl
  rw [listingSize]
  congr 1
  induction numbers with
  | nil => rfl
  | cons number rest ih =>
    rw [map_cons, map_cons, map_cons, sum_cons, ih, size,
      length_cons]
    omega

theorem identitiesResponse_encryptedRecord {numbers : List ℕ} (many : numbers.length = 128) :
    identitiesResponse ((numbers.map encryptedRecord).map listed) =
      failureResponse := by
  rw [identitiesResponse_eq, listingSize_encryptedRecord, many]
  exact if_neg (by decide)

/-- A load of 128 passphrase-protected RSA keys is accepted whole and published, and no key
can be listed any more: every request for identities fails. -/
theorem published_encrypted_keys_unlisted :
    ∃ (opened after : KeyStore encryptedCrate) (candidate loaded : CandidateLoad encryptedCrate)
      (report : LoadReport),
      KeyStore.new.beginLoad 1 1000000 = (.ok candidate, opened) ∧
      addAll candidate ((List.range 128).map encryptedItem) = (.ok (), loaded) ∧
      opened.publish loaded = (.ok report, after) ∧ after.publicIdentities.length = 128 ∧
      identitiesResponse (after.publicIdentities.map PublicIdentity.listed) =
        failureResponse := by
  let candidate : CandidateLoad encryptedCrate := ⟨1, 0, false, .empty, []⟩
  obtain ⟨loaded, all, sound, epoch, records⟩ := @addAll_encryptedItem candidate _
    nodup_range (fun number => mem_range.mp) nofun
    (by rw [length_range]; decide)
  rw [show candidate.keys.publicSet = [] from rfl, nil_append] at records
  refine ⟨⟨⟨1, .loading⟩, .empty⟩, ⟨⟨1, .unlocked⟩, loaded.keys⟩, candidate, loaded,
    ⟨loaded.keys.privateSet.length, loaded.skipped⟩, rfl, all, ?_, ?_, ?_⟩
  · unfold KeyStore.publish
    rw [sound, if_neg Bool.false_ne_true, epoch]
    rfl
  · show loaded.keys.publicSet.length = 128
    rw [records, length_map, length_range]
  · show identitiesResponse (loaded.keys.publicSet.map listed) = failureResponse
    rw [records]
    exact identitiesResponse_encryptedRecord length_range

end QsBitwarden.Agent
