import QsBitwarden.Lib.Wire

/-! Owns the companion's vault state, candidate loading and private-key ownership
(`state.rs`, `keystore.rs`, `signing.rs`, `rsa_keys`). The `ssh-key` and `rsa`
crates are a parameter. It does not own call histories. -/

namespace QsBitwarden.Agent

open Lib List Option

/-! ### Vault state -/

inductive VaultState
  | loggedOut
  | loading
  | unlocked
  | lockedCached
  | lockedEmpty
  deriving DecidableEq, Repr

structure StateTracker where
  epoch : ℕ
  state : VaultState
  deriving DecidableEq, Repr

namespace StateTracker

def new : StateTracker := ⟨0, .loggedOut⟩

def beginLoad (tracker : StateTracker) (epoch : ℕ) : Option StateTracker :=
  if epoch ≤ tracker.epoch then none else some ⟨epoch, .loading⟩

def publish (tracker : StateTracker) (epoch : ℕ) : Option StateTracker :=
  if tracker.epoch ≠ epoch ∨ tracker.state ≠ .loading then none
  else some { tracker with state := .unlocked }

def lock (tracker : StateTracker) (epoch : ℕ) (hasPublicCache : Bool) : StateTracker :=
  ⟨max tracker.epoch epoch, if hasPublicCache then .lockedCached else .lockedEmpty⟩

def logout (tracker : StateTracker) (epoch : ℕ) : StateTracker :=
  ⟨max tracker.epoch epoch, .loggedOut⟩

def allows (tracker : StateTracker) (epoch : ℕ) : Bool :=
  tracker.epoch = epoch ∧ tracker.state = .unlocked

variable {tracker : StateTracker}

theorem beginLoad_eq_some {after : StateTracker} {epoch : ℕ} :
    tracker.beginLoad epoch = some after ↔ tracker.epoch < epoch ∧ after = ⟨epoch, .loading⟩ := by
  unfold beginLoad
  split
  · simp; omega
  · simp [eq_comm]; omega

theorem publish_eq_some {after : StateTracker} {epoch : ℕ} :
    tracker.publish epoch = some after ↔
      tracker.epoch = epoch ∧ tracker.state = .loading ∧ after = ⟨epoch, .unlocked⟩ := by
  unfold publish
  split
  · simp_all; tauto
  · obtain ⟨current, state⟩ := tracker
    simp_all [eq_comm]

@[simp] theorem allows_eq_true {epoch : ℕ} :
    tracker.allows epoch = true ↔ tracker.epoch = epoch ∧ tracker.state = .unlocked := by
  simp [allows]

end StateTracker

/-! ### The SSH key crates -/

inductive Algorithm
  | ed25519
  | rsa
  | other
  deriving DecidableEq, Repr

inductive HashAlg
  | sha256
  | sha512
  deriving DecidableEq, Repr

inductive KeypairData (RsaKeypair : Type)
  | ed25519
  | rsa (keypair : RsaKeypair)
  | other

/-- What the companion calls of the `ssh-key` and `rsa` crates. -/
structure SshKeyCrate where
  PrivateKey : Type
  PublicKey : Type
  RsaKeypair : Type
  RsaPrivateKey : Type
  Signature : Type
  fromOpenssh : Bytes → Option PrivateKey
  algorithm : PrivateKey → Algorithm
  keyData : PrivateKey → KeypairData RsaKeypair
  publicKey : PrivateKey → PublicKey
  publicFromOpenssh : String → Option PublicKey
  toBytes : PublicKey → Option Bytes
  fingerprint : PublicKey → String
  toOpenssh : PublicKey → Option String
  fromComponents : RsaKeypair → Option RsaPrivateKey
  size : RsaPrivateKey → ℕ
  trySign : PrivateKey → Bytes → Option Signature
  pkcs1v15Sign : HashAlg → RsaPrivateKey → Bytes → Option Bytes
  newRsaSignature : HashAlg → Bytes → Option Signature
  signatureBytes : Signature → Option Bytes

variable (ssh : SshKeyCrate)

def minRsaKeyBits : ℕ := 2048

/-- `rsa_keys::private_key`. -/
def rsaPrivateKey (keypair : ssh.RsaKeypair) : Option ssh.RsaPrivateKey :=
  match ssh.fromComponents keypair with
  | some key => if satMul (ssh.size key) 8 < minRsaKeyBits then none else some key
  | none => none

/-- `signing::sign`: the algorithm is the one the agent-protocol flags select. -/
def signWith (key : ssh.PrivateKey) (message : Bytes) (flags : ℕ) : Option ssh.Signature :=
  match ssh.keyData key with
  | .ed25519 => if flags = 0 then ssh.trySign key message else none
  | .rsa keypair => do
      let hash ← if flags = 2 then some HashAlg.sha256
        else if flags = 4 then some HashAlg.sha512 else none
      let signing ← rsaPrivateKey ssh keypair
      let bytes ← ssh.pkcs1v15Sign hash signing message
      ssh.newRsaSignature hash bytes
  | .other => none

/-! ### Validated keys -/

def maxKeys : ℕ := 128
def maxPemBytes : ℕ := 64 * 1024
def maxMetadataBytes : ℕ := 256
def maxFilteredBytes : ℕ := 8 * 1024 * 1024

structure CandidateItem where
  itemId : String
  name : String
  privateKeyPem : Bytes
  publicKey : String
  fingerprint : String
  requiresReprompt : Bool
  deriving DecidableEq, Repr

inductive SkipCode
  | malformedPrivateKey
  | invalidPrivateKey
  | unsupportedKeyType
  | malformedPublicKey
  | publicKeyMismatch
  | fingerprintMismatch
  | requiresReprompt
  | duplicate
  deriving DecidableEq, Repr

structure SkippedItem where
  itemId : String
  code : SkipCode
  deriving DecidableEq, Repr

inductive LoadError
  | staleEpoch
  | filteredPayloadTooLarge
  | tooManyKeys
  | pemTooLarge
  | metadataTooLarge
  | failedCandidate
  deriving DecidableEq, Repr

structure LoadReport where
  loaded : ℕ
  skipped : List SkippedItem
  deriving DecidableEq, Repr

structure PublicIdentity where
  itemId : String
  name : String
  fingerprint : String
  publicKeyOpenssh : String
  publicBlob : Bytes
  deriving DecidableEq, Repr

structure PrivateIdentity where
  key : ssh.PrivateKey
  publicIndex : ℕ

/-- A public and a private set in which every private identity points at the public
record of its own key. -/
structure KeySet where
  publicSet : List PublicIdentity
  privateSet : List (PrivateIdentity ssh)
  matched : ∀ identity ∈ privateSet, ∃ record, publicSet[identity.publicIndex]? = some record ∧
    ssh.toBytes (ssh.publicKey identity.key) = some record.publicBlob

variable {ssh}

namespace KeySet

def empty : KeySet ssh := ⟨[], [], by simp⟩

/-- `private.clear()`. -/
def clearPrivate (keys : KeySet ssh) : KeySet ssh := ⟨keys.publicSet, [], by simp⟩

def push (keys : KeySet ssh) (key : ssh.PrivateKey) (record : PublicIdentity)
    (own : ssh.toBytes (ssh.publicKey key) = some record.publicBlob) : KeySet ssh where
  publicSet := keys.publicSet ++ [record]
  privateSet := keys.privateSet ++ [⟨key, keys.publicSet.length⟩]
  matched := by
    intro identity mem
    rcases mem_append.mp mem with old | new
    · obtain ⟨found, position, bytes⟩ := keys.matched identity old
      obtain ⟨below, -⟩ := List.getElem?_eq_some_iff.mp position
      exact ⟨found, by rw [getElem?_append_left below, position], bytes⟩
    · obtain rfl := mem_singleton.mp new
      exact ⟨record, by simp, own⟩

/-- Whether an identity is the one whose public record has this blob. -/
def names (keys : KeySet ssh) (publicBlob : Bytes) (identity : PrivateIdentity ssh) : Bool :=
  (keys.publicSet[identity.publicIndex]?).map PublicIdentity.publicBlob = some publicBlob

/-- The blob an identity is found by is the encoding of its own key. -/
theorem toBytes_of_names {keys : KeySet ssh} {publicBlob : Bytes} {identity : PrivateIdentity ssh}
    (mem : identity ∈ keys.privateSet) (named : keys.names publicBlob identity = true) :
    ssh.toBytes (ssh.publicKey identity.key) = some publicBlob := by
  obtain ⟨record, position, bytes⟩ := keys.matched identity mem
  simp only [names, position, map_some, Option.some.injEq, decide_eq_true_eq] at named
  rw [bytes, named]

end KeySet

/-! ### Candidate loads -/

variable (ssh) in
structure CandidateLoad where
  epoch : ℕ
  seenItems : ℕ
  failed : Bool
  keys : KeySet ssh
  skipped : List SkippedItem

/-- The characters of a name that fit in `budget` bytes: truncation stops at a
character boundary. -/
def fitting (budget : ℕ) : List Char → List Char
  | [] => []
  | c :: rest => if c.utf8Size ≤ budget then c :: fitting (budget - c.utf8Size) rest else []

def truncateName (name : String) : String :=
  if name.utf8ByteSize > maxMetadataBytes then
    String.ofList (fitting maxMetadataBytes name.toList)
  else name

variable (ssh) in
/-- A key that passed every check of `add`, with the record to publish for it. -/
structure Vetted where
  key : ssh.PrivateKey
  record : PublicIdentity
  own : ssh.toBytes (ssh.publicKey key) = some record.publicBlob

namespace CandidateLoad

variable (load : CandidateLoad ssh)

/-- The key checks of `add`, in the source's order. -/
def vet (item : CandidateItem) : Except SkipCode (Vetted ssh) :=
  if item.requiresReprompt then .error .requiresReprompt else
  match ssh.fromOpenssh item.privateKeyPem with
  | none => .error .malformedPrivateKey
  | some key =>
    if ssh.algorithm key = .other then .error .unsupportedKeyType else
    if (match ssh.keyData key with
        | .rsa keypair => (rsaPrivateKey ssh keypair).isNone
        | _ => false) then .error .invalidPrivateKey else
    match ssh.publicFromOpenssh item.publicKey with
    | none => .error .malformedPublicKey
    | some metadataKey =>
      match own : ssh.toBytes (ssh.publicKey key) with
      | none => .error .malformedPrivateKey
      | some publicBlob =>
        if ssh.toBytes metadataKey ≠ some publicBlob then .error .publicKeyMismatch else
        if ssh.fingerprint (ssh.publicKey key) ≠ item.fingerprint then
          .error .fingerprintMismatch else
        if load.keys.publicSet.any (fun identity => identity.publicBlob = publicBlob) then
          .error .duplicate else
        match ssh.toOpenssh (ssh.publicKey key) with
        | none => .error .malformedPublicKey
        | some publicKeyOpenssh =>
          .ok ⟨key, ⟨item.itemId, truncateName item.name, ssh.fingerprint (ssh.publicKey key),
            publicKeyOpenssh, publicBlob⟩, own⟩

def skip (itemId : String) (code : SkipCode) : CandidateLoad ssh :=
  { load with skipped := load.skipped ++ [⟨itemId, code⟩] }

/-- Key defects are skips; a hard limit poisons the whole candidate. -/
def add (item : CandidateItem) :
    Except LoadError (Option SkipCode) × CandidateLoad ssh :=
  let load := { load with seenItems := satAdd load.seenItems 1 }
  if load.seenItems > maxKeys then (.error .tooManyKeys, { load with failed := true }) else
  if item.privateKeyPem.length > maxPemBytes then
    (.error .pemTooLarge, { load with failed := true }) else
  if item.itemId.utf8ByteSize > maxMetadataBytes then
    (.error .metadataTooLarge, { load with failed := true }) else
  match load.vet item with
  | .error code => (.ok (some code), load.skip item.itemId code)
  | .ok vetted =>
    (.ok none, { load with keys := load.keys.push vetted.key vetted.record vetted.own })

@[simp] theorem add_epoch (item : CandidateItem) : (load.add item).2.epoch = load.epoch := by
  unfold add
  dsimp only
  split_ifs
  · rfl
  · rfl
  · rfl
  · split <;> rfl

/-- A hard limit is the only way `add` fails, and it leaves the candidate failed. -/
theorem add_failed (item : CandidateItem) :
    (load.add item).2.failed = (load.failed || (load.add item).1.isOk == false) := by
  unfold add
  dsimp only
  split_ifs
  · simp [Except.isOk, Except.toBool]
  · simp [Except.isOk, Except.toBool]
  · simp [Except.isOk, Except.toBool]
  · split <;> simp [skip, Except.isOk, Except.toBool]

/-- The load with one more item counted. -/
def seen : CandidateLoad ssh :=
  { load with seenItems := satAdd load.seenItems 1 }

/-- The outcomes of `add`: a hard limit, a skip, or a vetted key. -/
inductive AddOutcome (load : CandidateLoad ssh) (item : CandidateItem) :
    Except LoadError (Option SkipCode) × CandidateLoad ssh → Prop
  | limit (error : LoadError) : AddOutcome load item
      (.error error, { load.seen with failed := true })
  | skipped (code : SkipCode) (room : load.seen.seenItems ≤ maxKeys) :
      AddOutcome load item (.ok (some code), load.seen.skip item.itemId code)
  | added (vetted : Vetted ssh) (room : load.seen.seenItems ≤ maxKeys)
      (passed : load.seen.vet item = .ok vetted) :
      AddOutcome load item
        (.ok none, { load.seen with keys := load.keys.push vetted.key vetted.record vetted.own })

theorem add_outcome (item : CandidateItem) :
    AddOutcome load item (load.add item) := by
  unfold add
  dsimp only
  split_ifs with full large long
  · exact .limit _
  · exact .limit _
  · exact .limit _
  · have room : load.seen.seenItems ≤ maxKeys := Nat.le_of_not_lt full
    cases vetted : load.seen.vet item with
    | error code =>
      rw [seen] at vetted
      rw [vetted]
      exact .skipped code room
    | ok passed =>
      have step := AddOutcome.added passed room vetted
      rw [seen] at vetted
      rw [vetted]
      exact step

end CandidateLoad

/-! ### The key store -/

variable (ssh) in
/-- The only owner of live private keys. -/
structure KeyStore where
  tracker : StateTracker
  keys : KeySet ssh

structure AuthorizationPermit where
  epoch : ℕ
  publicBlob : Bytes
  deriving DecidableEq, Repr

namespace KeyStore

def new : KeyStore ssh := ⟨.new, .empty⟩

variable (store : KeyStore ssh)

def epoch : ℕ := store.tracker.epoch

def state : VaultState := store.tracker.state

def publicIdentities : List PublicIdentity := store.keys.publicSet

def beginLoad (epoch filteredBytes : ℕ) :
    Except LoadError (CandidateLoad ssh) × KeyStore ssh :=
  match store.tracker.beginLoad epoch with
  | none => (.error .staleEpoch, store)
  | some tracker =>
    let store := ⟨tracker, store.keys.clearPrivate⟩
    if filteredBytes > maxFilteredBytes then (.error .filteredPayloadTooLarge, store)
    else (.ok ⟨epoch, 0, false, .empty, []⟩, store)

def publish (load : CandidateLoad ssh) :
    Except LoadError LoadReport × KeyStore ssh :=
  if load.failed then (.error .failedCandidate, store) else
  match store.tracker.publish load.epoch with
  | none => (.error .staleEpoch, store)
  | some tracker => (.ok ⟨load.keys.privateSet.length, load.skipped⟩, ⟨tracker, load.keys⟩)

def lock (epoch : ℕ) : KeyStore ssh :=
  ⟨store.tracker.lock epoch (!store.keys.publicSet.isEmpty), store.keys.clearPrivate⟩

def logout (epoch : ℕ) : KeyStore ssh := ⟨store.tracker.logout epoch, .empty⟩

def authorize (publicBlob : Bytes) : Option AuthorizationPermit :=
  if store.tracker.allows store.epoch then
    (store.keys.privateSet.find? (store.keys.names publicBlob)).map
      fun _ => ⟨store.epoch, publicBlob⟩
  else none

def sign (permit : AuthorizationPermit) (message : Bytes) (flags : ℕ) :
    Option ssh.Signature :=
  if store.tracker.allows permit.epoch then
    (store.keys.privateSet.find? (store.keys.names permit.publicBlob)).bind
      fun identity => signWith ssh identity.key message flags
  else none

/-! ### What each call can do -/

/-- The outcomes of `begin_load`. -/
inductive BeginLoadOutcome (store : KeyStore ssh) (epoch : ℕ) :
    Except LoadError (CandidateLoad ssh) × KeyStore ssh → Prop
  | stale (old : epoch ≤ store.epoch) : BeginLoadOutcome store epoch (.error .staleEpoch, store)
  | tooLarge (newer : store.epoch < epoch) :
      BeginLoadOutcome store epoch
        (.error .filteredPayloadTooLarge, ⟨⟨epoch, .loading⟩, store.keys.clearPrivate⟩)
  | begun (newer : store.epoch < epoch) :
      BeginLoadOutcome store epoch
        (.ok ⟨epoch, 0, false, .empty, []⟩, ⟨⟨epoch, .loading⟩, store.keys.clearPrivate⟩)

theorem beginLoad_outcome (epoch filteredBytes : ℕ) :
    BeginLoadOutcome store epoch (store.beginLoad epoch filteredBytes) := by
  unfold beginLoad
  cases entered : store.tracker.beginLoad epoch with
  | none =>
    refine .stale ?_
    unfold StateTracker.beginLoad at entered
    split at entered
    · assumption
    · cases entered
  | some tracker =>
    obtain ⟨newer, rfl⟩ := StateTracker.beginLoad_eq_some.mp entered
    dsimp only
    split
    · exact .tooLarge newer
    · exact .begun newer

/-- The outcomes of `publish`: refused without effect, or both sets replaced. -/
inductive PublishOutcome (store : KeyStore ssh) (load : CandidateLoad ssh) :
    Except LoadError LoadReport × KeyStore ssh → Prop
  | refused (error : LoadError) : PublishOutcome store load (.error error, store)
  | published (report : LoadReport) (sound : load.failed = false)
      (current : store.epoch = load.epoch) (loading : store.state = .loading) :
      PublishOutcome store load (.ok report, ⟨⟨load.epoch, .unlocked⟩, load.keys⟩)

theorem publish_outcome (load : CandidateLoad ssh) :
    PublishOutcome store load (store.publish load) := by
  unfold publish
  split_ifs with failed
  · exact .refused _
  · cases published : store.tracker.publish load.epoch with
    | none => exact .refused _
    | some tracker =>
      obtain ⟨current, loading, rfl⟩ := StateTracker.publish_eq_some.mp published
      exact .published _ (by simpa using failed) current loading

theorem authorize_eq_some {store : KeyStore ssh} {publicBlob : Bytes}
    {permit : AuthorizationPermit} (authorized : store.authorize publicBlob = some permit) :
    store.state = .unlocked ∧ permit = ⟨store.epoch, publicBlob⟩ := by
  unfold authorize at authorized
  split at authorized
  · next allowed =>
    obtain ⟨identity, -, rfl⟩ := map_eq_some_iff.mp authorized
    exact ⟨(StateTracker.allows_eq_true.mp allowed).2, rfl⟩
  · cases authorized

/-- A signature is made in the permit's own epoch, unlocked, under the private key
whose encoded public key is the blob the permit names. -/
theorem sign_eq_some {store : KeyStore ssh} {permit : AuthorizationPermit} {message : Bytes}
    {flags : ℕ} {signature : ssh.Signature}
    (signed : store.sign permit message flags = some signature) :
    store.epoch = permit.epoch ∧ store.state = .unlocked ∧
      ∃ identity ∈ store.keys.privateSet,
        ssh.toBytes (ssh.publicKey identity.key) = some permit.publicBlob ∧
        signWith ssh identity.key message flags = some signature := by
  unfold sign at signed
  split at signed
  · next allowed =>
    obtain ⟨current, unlocked⟩ := StateTracker.allows_eq_true.mp allowed
    obtain ⟨identity, found, made⟩ := bind_eq_some_iff.mp signed
    have mem := mem_of_find?_eq_some found
    exact ⟨current, unlocked, identity, mem,
      KeySet.toBytes_of_names mem (find?_some found), made⟩
  · cases signed

end KeyStore

/-! ### A crate to run on -/

/-- Keys are numbers: small enough to evaluate, and every check of `add` is met by the
key's own data. -/
def sampleCrate : SshKeyCrate where
  PrivateKey := ℕ
  PublicKey := ℕ
  RsaKeypair := Unit
  RsaPrivateKey := Unit
  Signature := Bytes
  fromOpenssh pem := pem.head?.map UInt8.toNat
  algorithm _ := .ed25519
  keyData _ := .ed25519
  publicKey key := key
  publicFromOpenssh text := some text.length
  toBytes key := some [UInt8.ofNat key]
  fingerprint key := String.ofList (List.replicate key 'f')
  toOpenssh key := some (String.ofList (List.replicate key 'k'))
  fromComponents _ := none
  size _ := 0
  trySign key message := some (UInt8.ofNat key :: message)
  pkcs1v15Sign _ _ _ := none
  newRsaSignature _ _ := none
  signatureBytes := some

def sampleItem : CandidateItem := ⟨"item", "name", [1], "k", "f", false⟩

end QsBitwarden.Agent
