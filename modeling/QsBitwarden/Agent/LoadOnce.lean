import QsBitwarden.Agent.Load

/-! Owns what one load window can do to the key store over its whole life: which payload
reaches `begin_load`, what a refused payload leaves behind and what is left of a load that
fails half way. It does not own which payload is read for a window. -/

namespace QsBitwarden.Agent

open Lib List

variable {ssh : SshKeyCrate}

/-! ### Before and after `begin_load` -/

namespace LoadWindow

/-- How many of the calls of `decode` on one window, each with its payload and the store as it
is by then, reach `begin_load`. -/
def reaching (fromSlice : Bytes → Option Envelope) :
    LoadWindow → List (Bytes × KeyStore ssh) → ℕ
  | _, [] => 0
  | window, (bytes, store) :: rest =>
    (if (window.examine fromSlice bytes).isOk then 1 else 0) +
      reaching fromSlice (window.decode fromSlice bytes store).2.1 rest

/-- A payload that must not touch the store it is decoded into. -/
inductive Refuses (fromSlice : Bytes → Option Envelope) (window : LoadWindow) (bytes : Bytes)
    (store : KeyStore ssh) : Prop
  | tooLarge (large : maxFilteredBytes < bytes.length)
  | malformed (unread : readEnvelope fromSlice bytes = none)
  | otherNonce (loadId : String) (items : List CandidateItem)
      (read : readEnvelope fromSlice bytes = some (loadId, items))
      (other : parseNonce loadId ≠ window.nonce)
  | staleEpoch (stale : window.epoch ≤ store.epoch)

variable {fromSlice : Bytes → Option Envelope} {window : LoadWindow} {bytes : Bytes}
  {store : KeyStore ssh}

theorem decode_window (fromSlice : Bytes → Option Envelope) (window : LoadWindow) (bytes : Bytes)
    (store : KeyStore ssh) : (window.decode fromSlice bytes store).2.1 = window.taken := by
  cases examined : window.examine fromSlice bytes with
  | error error => rw [decode_of_refused examined]
  | ok items => rw [decode_of_admitted examined]

/-- A window whose nonce is taken stays so, and refuses every payload. -/
theorem reaching_taken (window : LoadWindow) (calls : List (Bytes × KeyStore ssh)) :
    reaching fromSlice window.taken calls = 0 := by
  induction calls with
  | nil => rfl
  | cons call rest ih =>
    have refused : window.taken.examine fromSlice call.1 = .error .closed := rfl
    have still : window.taken.taken = window.taken := rfl
    rw [reaching, refused, decode_window, still, ih]
    rfl

theorem reaching_le_one (window : LoadWindow) (calls : List (Bytes × KeyStore ssh)) :
    reaching fromSlice window calls ≤ 1 := by
  cases calls with
  | nil => exact Nat.zero_le 1
  | cons call rest =>
    rw [reaching, decode_window, reaching_taken]
    split_ifs <;> omega

theorem build_of_stale (stale : window.epoch ≤ store.epoch) (filteredBytes : ℕ)
    (items : List CandidateItem) :
    window.build filteredBytes items store = (.error (.load .staleEpoch), store) := by
  have refused : store.tracker.beginLoad window.epoch = none := if_pos stale
  rw [build, KeyStore.beginLoad, refused]

/-- A refused payload closes the window and leaves the store as it was. -/
theorem Refuses.decode_eq (refuses : window.Refuses fromSlice bytes store) :
    ∃ error, window.decode fromSlice bytes store = (.error error, window.taken, store) := by
  cases admitted : window.examine fromSlice bytes with
  | error error => exact ⟨error, decode_of_refused admitted store⟩
  | ok items =>
    obtain ⟨small, named, expected, armed, found, own⟩ := read_of_admitted admitted
    cases refuses with
    | tooLarge large => omega
    | malformed unread =>
      rw [found] at unread
      cases unread
    | otherNonce loadId items read other =>
      rw [found] at read
      cases read
      exact absurd (own.trans armed.symm) other
    | staleEpoch stale =>
      refine ⟨.load .staleEpoch, ?_⟩
      rw [decode_of_admitted admitted, build_of_stale stale]

end LoadWindow

/-! ### A load that fails half way -/

/-- The item that hit a hard limit marked the candidate. -/
theorem failed_of_failure {load failed : CandidateLoad ssh} {items : List CandidateItem}
    {error : LoadError} (failure : addAll load items = (.error error, failed)) :
    failed.failed = true := by
  induction items generalizing load with
  | nil => cases failure
  | cons item rest ih =>
    have marked := load.add_failed item
    rw [addAll] at failure
    split at failure
    · exact ih failure
    · next limit next added =>
      cases failure
      rw [added] at marked
      rw [marked]
      exact Bool.or_true _

namespace CandidateLoad

/-- The candidate after more items, whatever `add` said to each. -/
def addMore (load : CandidateLoad ssh) (items : List CandidateItem) : CandidateLoad ssh :=
  items.foldl (fun load item => (load.add item).2) load

/-- A failed candidate stays failed. -/
theorem addMore_failed {load : CandidateLoad ssh} (failed : load.failed = true)
    (items : List CandidateItem) : (load.addMore items).failed = true := by
  induction items generalizing load with
  | nil => exact failed
  | cons item rest ih =>
    have marked : (load.add item).2.failed = true := by rw [add_failed, failed, Bool.true_or]
    exact ih marked

end CandidateLoad

variable (ssh) in
/-- What may happen to the store later on. -/
inductive StoreCall
  | beginLoad (epoch filteredBytes : ℕ)
  | publish (load : CandidateLoad ssh)
  | lock (epoch : ℕ)
  | logout (epoch : ℕ)

namespace KeyStore

def call (store : KeyStore ssh) : StoreCall ssh → KeyStore ssh
  | .beginLoad epoch filteredBytes => (store.beginLoad epoch filteredBytes).2
  | .publish load => (store.publish load).2
  | .lock epoch => store.lock epoch
  | .logout epoch => store.logout epoch

/-- No private key is held and the vault does not count as unlocked. -/
structure Withheld (store : KeyStore ssh) : Prop where
  noKeys : store.keys.privateSet = []
  closed : store.state ≠ .unlocked

variable {store : KeyStore ssh}

theorem Withheld.authorize (withheld : store.Withheld)
    (publicBlob : Bytes) : store.authorize publicBlob = none := by
  cases authorized : store.authorize publicBlob with
  | none => rfl
  | some permit => exact absurd (authorize_eq_some authorized).1 withheld.closed

theorem Withheld.sign (withheld : store.Withheld)
    (permit : AuthorizationPermit) (message : Bytes) (flags : ℕ) :
    store.sign permit message flags = none := by
  cases signed : store.sign permit message flags with
  | none => rfl
  | some signature => exact absurd (sign_eq_some signed).2.1 withheld.closed

theorem publish_of_failed {load : CandidateLoad ssh} (failed : load.failed = true)
    (store : KeyStore ssh) : store.publish load = (.error .failedCandidate, store) := by
  rw [publish, if_pos failed]

/-- Only the publication of a sound candidate gives out keys again. -/
theorem Withheld.call (withheld : store.Withheld) (next : StoreCall ssh)
    (unsound : ∀ load, next = .publish load → load.failed = true) :
    (store.call next).Withheld := by
  cases next with
  | beginLoad epoch filteredBytes =>
    have outcome := store.beginLoad_outcome epoch filteredBytes
    rw [KeyStore.call]
    generalize store.beginLoad epoch filteredBytes = result at outcome
    cases outcome with
    | stale old => exact withheld
    | tooLarge newer => exact ⟨rfl, by simp [KeyStore.state]⟩
    | begun newer => exact ⟨rfl, by simp [KeyStore.state]⟩
  | publish load =>
    rw [KeyStore.call, publish_of_failed (unsound load rfl)]
    exact withheld
  | lock epoch =>
    refine ⟨rfl, ?_⟩
    show (if (!store.keys.publicSet.isEmpty) = true then VaultState.lockedCached
      else .lockedEmpty) ≠ .unlocked
    split_ifs <;> simp
  | logout epoch => exact ⟨rfl, by simp [KeyStore.call, KeyStore.logout, KeyStore.state,
      StateTracker.logout]⟩

theorem Withheld.calls (withheld : store.Withheld) {later : List (StoreCall ssh)}
    (unsound : ∀ load, .publish load ∈ later → load.failed = true) :
    (later.foldl KeyStore.call store).Withheld := by
  induction later generalizing store with
  | nil => exact withheld
  | cons next rest ih =>
    apply ih
    · apply withheld.call next
      intro load publishes
      exact unsound load (publishes ▸ mem_cons_self)
    · intro load mem
      exact unsound load (mem_cons_of_mem next mem)

/-- What `begin_load` leaves: the old private keys are gone, the public set is kept. -/
theorem withheld_of_begun {opened : KeyStore ssh} {candidate : CandidateLoad ssh}
    {epoch filteredBytes : ℕ}
    (begun : store.beginLoad epoch filteredBytes = (.ok candidate, opened)) :
    opened.Withheld ∧ opened.publicIdentities = store.publicIdentities := by
  have outcome := store.beginLoad_outcome epoch filteredBytes
  rw [begun] at outcome
  cases outcome with
  | begun newer => exact ⟨⟨rfl, by simp [KeyStore.state]⟩, rfl⟩

end KeyStore

/-- One window lets one payload at most reach `begin_load`. A payload that is too large,
malformed, names another load or comes too late leaves the store as it was. When an item
fails the load, the old keys are gone and the new ones are in no store: no signature is made
until another load publishes, and no store ever accepts the failed candidate. -/
theorem LoadWindow.used_once (fromSlice : Bytes → Option Envelope) (window : LoadWindow) :
    (∀ calls : List (Bytes × KeyStore ssh), reaching fromSlice window calls ≤ 1) ∧
    (∀ (bytes : Bytes) (store : KeyStore ssh), window.Refuses fromSlice bytes store →
      ∃ error, window.decode fromSlice bytes store = (.error error, window.taken, store)) ∧
    (∀ (bytes : Bytes) (items : List CandidateItem) (error : LoadError)
      (store opened : KeyStore ssh) (candidate failed : CandidateLoad ssh),
      window.examine fromSlice bytes = .ok items →
      store.beginLoad window.epoch bytes.length = (.ok candidate, opened) →
      addAll candidate items = (.error error, failed) →
      window.decode fromSlice bytes store = (.error (.load error), window.taken, opened) ∧
      opened.publicIdentities = store.publicIdentities ∧
      (∀ later : List (StoreCall ssh),
        (∀ load, .publish load ∈ later → load.failed = true) →
        (∀ publicBlob, (later.foldl KeyStore.call opened).authorize publicBlob = none) ∧
        ∀ permit message flags,
          (later.foldl KeyStore.call opened).sign permit message flags = none) ∧
      ∀ (more : List CandidateItem) (other : KeyStore ssh),
        other.publish (failed.addMore more) = (.error .failedCandidate, other)) := by
  refine ⟨reaching_le_one window, fun bytes store refuses => refuses.decode_eq, ?_⟩
  intro bytes items error store opened candidate failed admitted begun failure
  obtain ⟨withheld, kept⟩ := KeyStore.withheld_of_begun begun
  have marked := failed_of_failure failure
  refine ⟨?_, kept, ?_, ?_⟩
  · rw [decode_of_admitted admitted, build, begun]
    dsimp only
    rw [failure]
  · intro later unsound
    have quiet := withheld.calls unsound
    exact ⟨quiet.authorize, quiet.sign⟩
  · intro more other
    exact KeyStore.publish_of_failed (CandidateLoad.addMore_failed marked more) other

def overlongItem : EnvelopeItem :=
  ⟨String.ofList (List.replicate 257 'i'), "name", [65, 81, 61, 61], "k", "f", false⟩

/-- Every payload reads as one item, whose id is over the metadata limit. -/
def readOverlong (_ : Bytes) : Option Envelope :=
  some ⟨String.ofList (List.replicate 32 '0'), [overlongItem]⟩

def sampleWindow : LoadWindow := ⟨1, some (List.replicate 32 48)⟩

theorem addAll_overlong :
    addAll (⟨1, 0, false, .empty, []⟩ : CandidateLoad sampleCrate)
        [candidateItem overlongItem [1]] =
      (.error .metadataTooLarge, ⟨1, 1, true, .empty, []⟩) := by
  have long : maxMetadataBytes < (candidateItem overlongItem [1]).itemId.utf8ByteSize := by
    decide +kernel
  rw [addAll, CandidateLoad.add, if_neg (by decide), if_neg (by decide), if_pos long]
  rfl

/-- The window's first payload reaches `begin_load` and fails on the item's id; a store that
is already in the window's epoch would have been left alone. -/
theorem LoadWindow.used_once_overlong :
    ∃ (opened : KeyStore sampleCrate) (failed : CandidateLoad sampleCrate),
      reaching readOverlong sampleWindow [([], opened), ([], opened)] ≤ 1 ∧
      (∃ error, sampleWindow.decode readOverlong [] opened =
        (.error error, sampleWindow.taken, opened)) ∧
      sampleWindow.decode readOverlong [] KeyStore.new =
        (.error (.load .metadataTooLarge), sampleWindow.taken, opened) ∧
      opened.authorize [1] = none ∧
      opened.publish failed = (.error .failedCandidate, opened) := by
  have admitted : sampleWindow.examine readOverlong [] =
      .ok [candidateItem overlongItem [1]] := by decide +kernel
  obtain ⟨once, refused, failing⟩ := @used_once sampleCrate readOverlong sampleWindow
  obtain ⟨decoded, -, quiet, never⟩ := failing [] _ .metadataTooLarge KeyStore.new
    ⟨⟨1, .loading⟩, KeySet.empty.clearPrivate⟩ _ _ admitted rfl addAll_overlong
  refine ⟨_, _, once _, refused [] _ (.staleEpoch ?_), decoded, ?_, never [] _⟩
  · exact Nat.le_refl 1
  · apply (quiet [] ?_).1
    intro load mem
    cases mem

end QsBitwarden.Agent
