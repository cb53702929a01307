import QsBitwarden.Vault.Helper

/-! Owns who gets the helper's signals: the main loop, the threads that wait for a run and the
delayed stops, lock by lock, over an operating system that gives a process group id again once its
leader is reaped. It does not own what a run is for or what is kept of its output. -/

namespace QsBitwarden.Vault

open Lib List Option Function

/-! ### The threads -/

/-- A process the helper started as a run; the serial number tells it from all others. -/
structure Child where
  serial : ℕ
  id : ℕ
  group : ℕ
  deriving DecidableEq, Repr

/-- The run as the list has it. -/
def Child.entry (child : Child) : (_ : ℕ) × ℕ := ⟨child.id, child.group⟩

/-- Who has a process group id. -/
inductive Owner
  | free
  | foreign
  | child (serial : ℕ)
  deriving DecidableEq, Repr

/-- Where the main loop is, between the locks it takes. -/
inductive MainLoop
  | idle
  /-- `exec` found a place for the run. -/
  | checked (id : ℕ)
  | started (child : Child)
  /-- `kill` has signalled and gave the lock back. -/
  | signalled (id group : ℕ)
  | stopping (any : Bool)
  | stopped
  deriving DecidableEq, Repr

/-- The run the main loop has started and not listed. -/
def MainLoop.child : MainLoop → List Child
  | .started child => [child]
  | _ => []

/-- The run id the main loop has found a place for. -/
def MainLoop.reserved : MainLoop → Option ℕ
  | .checked id => some id
  | .started child => some child.id
  | _ => none

structure Workers where
  runs : AList fun _ : ℕ => ℕ
  /-- Runs on the list, and runs that left it and are not reaped. -/
  listed : List Child
  unlisted : List Child
  /-- Stop threads that sleep. -/
  stops : List (ℕ × ℕ)
  main : MainLoop
  owner : ℕ → Owner
  nextSerial : ℕ

namespace Workers

def initial (owner : ℕ → Owner) : Workers := ⟨∅, [], [], [], .idle, owner, 0⟩

inductive Event
  | exec (id : ℕ)
  /-- `spawn` returned, with the group of the new process if there is one. -/
  | spawned (group : Option ℕ)
  | inserted
  | kill (id : ℕ)
  | stopStarted
  | stopDue (id group : ℕ)
  /-- A run's thread takes it off the list, and reaps it. -/
  | left (serial : ℕ)
  | reaped (serial : ℕ)
  | shutdown
  | closed
  /-- Other processes come and go. -/
  | taken (group : ℕ)
  | freed (group : ℕ)
  deriving DecidableEq, Repr

abbrev Sent := List (ℕ × Signal)

section Events

variable (workers : Workers)

/-- Both checks of `exec`, under one lock. -/
def exec (id : ℕ) : Sent × Workers :=
  if workers.main ≠ .idle then ([], workers)
  else if maxRuns ≤ workers.runs.entries.length ∨ id ∈ workers.runs then ([], workers)
  else ([], { workers with main := .checked id })

/-- The operating system gives only an id that is free. -/
def spawned (group : Option ℕ) : Sent × Workers :=
  match workers.main, group with
  | .checked _, none => ([], { workers with main := .idle })
  | .checked id, some group =>
    if workers.owner group = .free then
      ([], { workers with
        main := .started ⟨workers.nextSerial, id, group⟩
        owner := update workers.owner group (.child workers.nextSerial)
        nextSerial := workers.nextSerial + 1 })
    else ([], workers)
  | _, _ => ([], workers)

def inserted : Sent × Workers :=
  match workers.main with
  | .started child =>
    ([], { workers with
      runs := workers.runs.insert child.id child.group
      listed := child :: workers.listed
      main := .idle })
  | _ => ([], workers)

def kill (id : ℕ) : Sent × Workers :=
  match workers.main, workers.runs.lookup id with
  | .idle, some group => (signalGroup .term group, { workers with main := .signalled id group })
  | _, _ => ([], workers)

def stopStarted : Sent × Workers :=
  match workers.main with
  | .signalled id group =>
    ([], { workers with stops := (id, group) :: workers.stops, main := .idle })
  | _ => ([], workers)

def stopDue (id group : ℕ) : Sent × Workers :=
  if workers.stops.contains (id, group) then
    (if workers.runs.lookup id = some group then signalGroup .kill group else [],
      { workers with stops := workers.stops.erase (id, group) })
  else ([], workers)

def left (serial : ℕ) : Sent × Workers :=
  match workers.listed.find? (·.serial = serial) with
  | some child =>
    ([], { workers with
      runs := workers.runs.erase child.id
      listed := workers.listed.erase child
      unlisted := child :: workers.unlisted })
  | none => ([], workers)

def reaped (serial : ℕ) : Sent × Workers :=
  match workers.unlisted.find? (·.serial = serial) with
  | some child =>
    ([], { workers with
      unlisted := workers.unlisted.erase child
      owner := update workers.owner child.group .free })
  | none => ([], workers)

/-- The groups on the list. -/
def groups : List ℕ := workers.runs.entries.map (·.2)

def shutdown : Sent × Workers :=
  match workers.main with
  | .idle =>
    (workers.groups.flatMap (signalGroup .term),
      { workers with main := .stopping (!workers.groups.isEmpty) })
  | _ => ([], workers)

def closed : Sent × Workers :=
  match workers.main with
  | .stopping any =>
    (if any then workers.groups.flatMap (signalGroup .kill) else [],
      { workers with main := .stopped })
  | _ => ([], workers)

def taken (group : ℕ) : Sent × Workers :=
  if workers.owner group = .free then
    ([], { workers with owner := update workers.owner group .foreign })
  else ([], workers)

def freed (group : ℕ) : Sent × Workers :=
  if workers.owner group = .foreign then
    ([], { workers with owner := update workers.owner group .free })
  else ([], workers)

def perform : Event → Sent × Workers
  | .exec id => workers.exec id
  | .spawned group => workers.spawned group
  | .inserted => workers.inserted
  | .kill id => workers.kill id
  | .stopStarted => workers.stopStarted
  | .stopDue id group => workers.stopDue id group
  | .left serial => workers.left serial
  | .reaped serial => workers.reaped serial
  | .shutdown => workers.shutdown
  | .closed => workers.closed
  | .taken group => workers.taken group
  | .freed group => workers.freed group

end Events

/-- Everything an event can do. -/
inductive Effect (workers : Workers) : Event → Sent → Workers → Prop
  | ignored (event : Event) : Effect workers event [] workers
  | checked (id : ℕ) (idle : workers.main = .idle) (absent : id ∉ workers.runs)
      (room : workers.runs.entries.length < maxRuns) :
      Effect workers (.exec id) [] { workers with main := .checked id }
  | refused (id : ℕ) (checked : workers.main = .checked id) :
      Effect workers (.spawned none) [] { workers with main := .idle }
  | started (id group : ℕ) (checked : workers.main = .checked id)
      (free : workers.owner group = .free) :
      Effect workers (.spawned (some group)) []
        { workers with
          main := .started ⟨workers.nextSerial, id, group⟩
          owner := update workers.owner group (.child workers.nextSerial)
          nextSerial := workers.nextSerial + 1 }
  | inserted (child : Child) (started : workers.main = .started child) :
      Effect workers .inserted []
        { workers with
          runs := workers.runs.insert child.id child.group
          listed := child :: workers.listed
          main := .idle }
  | killed (id group : ℕ) (idle : workers.main = .idle)
      (listed : workers.runs.lookup id = some group) :
      Effect workers (.kill id) (signalGroup .term group)
        { workers with main := .signalled id group }
  | sleeps (id group : ℕ) (signalled : workers.main = .signalled id group) :
      Effect workers .stopStarted []
        { workers with stops := (id, group) :: workers.stops, main := .idle }
  | wakes (id group : ℕ) (waits : (id, group) ∈ workers.stops) :
      Effect workers (.stopDue id group)
        (if workers.runs.lookup id = some group then signalGroup .kill group else [])
        { workers with stops := workers.stops.erase (id, group) }
  | left (serial : ℕ) (child : Child) (mem : child ∈ workers.listed) :
      Effect workers (.left serial) []
        { workers with
          runs := workers.runs.erase child.id
          listed := workers.listed.erase child
          unlisted := child :: workers.unlisted }
  | reaped (serial : ℕ) (child : Child) (mem : child ∈ workers.unlisted) :
      Effect workers (.reaped serial) []
        { workers with
          unlisted := workers.unlisted.erase child
          owner := update workers.owner child.group .free }
  | shutdown (idle : workers.main = .idle) :
      Effect workers .shutdown (workers.groups.flatMap (signalGroup .term))
        { workers with main := .stopping (!workers.groups.isEmpty) }
  | closed (any : Bool) (stopping : workers.main = .stopping any) :
      Effect workers .closed (if any then workers.groups.flatMap (signalGroup .kill) else [])
        { workers with main := .stopped }
  | elsewhere (event : Event) (group : ℕ) (owner : Owner)
      (other : ∀ serial, workers.owner group ≠ .child serial) :
      Effect workers event []
        { workers with owner := update workers.owner group owner }

theorem perform_effect (workers : Workers) (event : Event) :
    Effect workers event (workers.perform event).1 (workers.perform event).2 := by
  unfold perform
  cases event with
  | exec id =>
    dsimp only [exec]
    split_ifs with busy full
    · exact .ignored _
    · exact .ignored _
    · rw [not_or, Nat.not_le] at full
      exact .checked id (not_not.mp busy) full.2 full.1
  | spawned group =>
    dsimp only [spawned]
    split
    · next id checked => exact .refused id checked
    · next id group checked =>
      split_ifs with free
      · exact .started id group checked free
      · exact .ignored _
    · exact .ignored _
  | inserted =>
    dsimp only [inserted]
    split
    · next child started => exact .inserted child started
    · exact .ignored _
  | kill id =>
    dsimp only [kill]
    split
    · next group idle listed => exact .killed id group idle listed
    · exact .ignored _
  | stopStarted =>
    dsimp only [stopStarted]
    split
    · next id group signalled => exact .sleeps id group signalled
    · exact .ignored _
  | stopDue id group =>
    dsimp only [stopDue]
    by_cases waits : workers.stops.contains (id, group) = true
    · rw [if_pos waits]
      exact .wakes id group (contains_iff_mem.mp waits)
    · rw [if_neg waits]
      exact .ignored _
  | left serial =>
    dsimp only [left]
    split
    · next child found => exact .left serial child (mem_of_find?_eq_some found)
    · exact .ignored _
  | reaped serial =>
    dsimp only [reaped]
    split
    · next child found => exact .reaped serial child (mem_of_find?_eq_some found)
    · exact .ignored _
  | shutdown =>
    dsimp only [shutdown]
    split
    · next idle => exact .shutdown idle
    · exact .ignored _
  | closed =>
    dsimp only [closed]
    split
    · next any stopping => exact .closed any stopping
    · exact .ignored _
  | taken group =>
    dsimp only [taken]
    split_ifs with free
    · exact .elsewhere _ group .foreign (by simp [free])
    · exact .ignored _
  | freed group =>
    dsimp only [freed]
    split_ifs with foreign
    · exact .elsewhere _ group .free (by simp [foreign])
    · exact .ignored _

/-! ### What holds between any two locks -/

/-- Every run that is not reaped. -/
def children (workers : Workers) : List Child :=
  workers.main.child ++ workers.listed ++ workers.unlisted

structure Sound (workers : Workers) : Prop where
  mirrored : workers.runs.entries.Perm (workers.listed.map Child.entry)
  bounded : workers.runs.entries.length ≤ maxRuns
  reserved : ∀ id, workers.main.reserved = some id →
    id ∉ workers.runs ∧ workers.runs.entries.length < maxRuns
  owned : ∀ child ∈ workers.children, workers.owner child.group = .child child.serial
  serials : (workers.children.map Child.serial).Nodup
  fresh : ∀ child ∈ workers.children, child.serial < workers.nextSerial

theorem sound_initial (owner : ℕ → Owner) : Sound (initial owner) where
  mirrored := .nil
  bounded := Nat.zero_le _
  reserved id checked := by cases checked
  owned child mem := by cases mem
  serials := nodup_nil
  fresh child mem := by cases mem

section Steps

variable {workers : Workers} (sound : Sound workers)

include sound

variable {id : ℕ}

theorem Sound.lookup_iff {group : ℕ} : workers.runs.lookup id = some group ↔
    ∃ child ∈ workers.listed, child.entry = ⟨id, group⟩ := by
  rw [← Option.mem_def, AList.mem_lookup_iff, sound.mirrored.mem_iff, List.mem_map]

theorem Sound.distinct : (workers.listed.map Child.id).Nodup := by
  have keys := (sound.mirrored.map Sigma.fst).nodup_iff.mp workers.runs.nodupKeys
  rwa [List.map_map] at keys

/-- A step that changes none of the runs and nothing of who owns what. -/
theorem Sound.withMain {main : MainLoop} (idle : main.child = workers.main.child)
    (reserved : ∀ id, main.reserved = some id →
      id ∉ workers.runs ∧ workers.runs.entries.length < maxRuns) (stops : List (ℕ × ℕ)) :
    Sound { workers with main := main, stops := stops } := by
  have same : children { workers with main := main, stops := stops } = workers.children := by
    unfold children
    rw [← idle]
  exact { sound with
    reserved := reserved
    owned := by rw [same]; exact sound.owned
    serials := by rw [same]; exact sound.serials
    fresh := by rw [same]; exact sound.fresh }

variable {group : ℕ}

/-- An id that no run has changes hands. -/
theorem Sound.withOwner {owner : Owner} (other : ∀ serial, workers.owner group ≠ .child serial) :
    Sound { workers with owner := update workers.owner group owner } := by
  refine { sound with owned := fun child mem => ?_ }
  have owned := sound.owned child mem
  have elsewhere : child.group ≠ group := by
    intro same
    rw [same] at owned
    exact other _ owned
  dsimp only
  rw [update_of_ne elsewhere]
  exact owned

theorem Sound.started (checked : workers.main = .checked id) (free : workers.owner group = .free) :
    Sound { workers with
      main := .started ⟨workers.nextSerial, id, group⟩
      owner := update workers.owner group (.child workers.nextSerial)
      nextSerial := workers.nextSerial + 1 } := by
  have before : workers.children = workers.listed ++ workers.unlisted := by
    unfold children
    rw [checked]
    rfl
  have elsewhere : ∀ child ∈ workers.listed ++ workers.unlisted, child.group ≠ group := by
    intro child mem same
    have owned := sound.owned child (before ▸ mem)
    rw [same, free] at owned
    cases owned
  have fresh : ∀ child ∈ workers.listed ++ workers.unlisted, child.serial < workers.nextSerial := by
    rw [← before]
    exact sound.fresh
  refine { sound with reserved := ?_, owned := ?_, serials := ?_, fresh := ?_ }
  · intro other reserved
    cases reserved
    exact sound.reserved id (by rw [checked]; rfl)
  · intro child mem
    rcases mem_cons.mp mem with rfl | mem
    · exact update_self ..
    · dsimp only
      rw [update_of_ne (elsewhere child mem)]
      exact sound.owned child (before ▸ mem)
  · have others := sound.serials
    rw [before] at others
    refine nodup_cons.mpr ⟨?_, others⟩
    intro used
    obtain ⟨child, mem, same⟩ := List.mem_map.mp used
    exact absurd (fresh child mem) (by rw [same]; exact lt_irrefl _)
  · intro child mem
    rcases mem_cons.mp mem with rfl | mem
    · exact Nat.lt_succ_self _
    · exact Nat.lt_succ_of_lt (fresh child mem)

theorem Sound.list {child : Child} (started : workers.main = .started child) :
    Sound { workers with
      runs := workers.runs.insert child.id child.group
      listed := child :: workers.listed
      main := .idle } := by
  obtain ⟨absent, room⟩ := sound.reserved child.id (by rw [started]; rfl)
  have same : children { workers with
      runs := workers.runs.insert child.id child.group
      listed := child :: workers.listed
      main := .idle } = workers.children := by
    unfold children
    rw [started]
    rfl
  have entries : (workers.runs.insert child.id child.group).entries =
      ⟨child.id, child.group⟩ :: workers.runs.entries :=
    AList.entries_insert_of_notMem absent
  exact
    { mirrored := entries ▸ sound.mirrored.cons child.entry
      bounded := entries ▸ room
      reserved := nofun
      owned := by rw [same]; exact sound.owned
      serials := by rw [same]; exact sound.serials
      fresh := by rw [same]; exact sound.fresh }

theorem Sound.unlist {child : Child} (mem : child ∈ workers.listed) :
    Sound { workers with
      runs := workers.runs.erase child.id
      listed := workers.listed.erase child
      unlisted := child :: workers.unlisted } := by
  have moved : List.Perm workers.children
      (children { workers with
        runs := workers.runs.erase child.id
        listed := workers.listed.erase child
        unlisted := child :: workers.unlisted }) := by
    unfold children
    dsimp only
    rw [append_assoc, append_assoc]
    apply List.Perm.append_left
    exact ((perm_cons_erase mem).append_right _).trans perm_middle.symm
  have erased := entries_perm (sound.lookup_iff.mpr ⟨child, mem, rfl⟩)
  have shorter : (workers.runs.erase child.id).entries.length < workers.runs.entries.length := by
    rw [erased.length_eq]
    exact Nat.lt_succ_self _
  constructor
  case mirrored =>
    have both := erased.symm.trans (sound.mirrored.trans ((perm_cons_erase mem).map Child.entry))
    exact both.cons_inv
  case bounded => exact shorter.le.trans sound.bounded
  case reserved =>
    intro id reserved
    obtain ⟨absent, fits⟩ := sound.reserved id reserved
    exact ⟨fun found => absent (AList.mem_erase.mp found).2, shorter.trans fits⟩
  case owned =>
    intro other found
    exact sound.owned other (moved.mem_iff.mpr found)
  case serials => exact (moved.map _).nodup_iff.mp sound.serials
  case fresh =>
    intro other found
    exact sound.fresh other (moved.mem_iff.mpr found)

theorem Sound.reap {child : Child} (mem : child ∈ workers.unlisted) :
    Sound { workers with
      unlisted := workers.unlisted.erase child
      owner := update workers.owner child.group .free } := by
  have moved : List.Perm workers.children
      (child :: children { workers with
        unlisted := workers.unlisted.erase child
        owner := update workers.owner child.group .free }) :=
    ((perm_cons_erase mem).append_left _).trans perm_middle
  have nodup := (moved.map Child.serial).nodup_iff.mp sound.serials
  rw [map_cons, nodup_cons] at nodup
  have remains : ∀ other ∈ children { workers with
      unlisted := workers.unlisted.erase child
      owner := update workers.owner child.group .free }, other ∈ workers.children :=
    fun other found => moved.mem_iff.mpr (mem_cons_of_mem _ found)
  refine { sound with
    owned := fun other found => ?_
    serials := nodup.2
    fresh := fun other found => sound.fresh other (remains other found) }
  have owned := sound.owned other (remains other found)
  -- The group is the reaped run's, so another run cannot have it.
  have elsewhere : other.group ≠ child.group := by
    intro same
    rw [same, sound.owned child (moved.mem_iff.mpr mem_cons_self)] at owned
    injection owned with serial
    exact nodup.1 (List.mem_map.mpr ⟨other, found, serial.symm⟩)
  dsimp only
  rw [update_of_ne elsewhere]
  exact owned

theorem Sound.effect {event : Event} {sent : Sent} {after : Workers}
    (effect : Effect workers event sent after) : Sound after := by
  cases effect with
  | ignored => exact sound
  | checked id idle absent room =>
    refine sound.withMain (by rw [idle]; rfl) ?_ _
    rintro other ⟨⟩
    exact ⟨absent, room⟩
  | refused id checked =>
    exact sound.withMain (by rw [checked]; rfl) (by simp [MainLoop.reserved]) _
  | started id group checked free => exact sound.started checked free
  | inserted child started => exact sound.list started
  | killed id group idle listed =>
    exact sound.withMain (by rw [idle]; rfl) (by simp [MainLoop.reserved]) _
  | sleeps id group signalled =>
    exact sound.withMain (by rw [signalled]; rfl) (by simp [MainLoop.reserved]) _
  | wakes id group waits => exact sound.withMain rfl sound.reserved _
  | left serial child mem => exact sound.unlist mem
  | reaped serial child mem => exact sound.reap mem
  | shutdown idle => exact sound.withMain (by rw [idle]; rfl) (by simp [MainLoop.reserved]) _
  | closed any stopping =>
    exact sound.withMain (by rw [stopping]; rfl) (by simp [MainLoop.reserved]) _
  | elsewhere event group owner other => exact sound.withOwner other

/-! ### Who is signalled -/

theorem Sound.of_lookup (found : workers.runs.lookup id = some group) :
    ∃ child ∈ workers.listed, child.id = id ∧ child.group = group ∧
      workers.owner group = .child child.serial := by
  obtain ⟨child, mem, entry⟩ := sound.lookup_iff.mp found
  cases entry
  refine ⟨child, mem, rfl, rfl, sound.owned child ?_⟩
  exact mem_append_left _ (mem_append_right _ mem)

end Steps

variable {target : ℕ × Signal}

theorem group_of_signalGroup {signal : Signal} {group : ℕ}
    (sent : target ∈ signalGroup signal group) : target.1 = group := by
  unfold signalGroup at sent
  split_ifs at sent
  · rw [mem_singleton.mp sent]
  · cases sent

theorem lookup_of_groups {workers : Workers} {signal : Signal}
    (sent : target ∈ workers.groups.flatMap (signalGroup signal)) :
    ∃ id, workers.runs.lookup id = some target.1 := by
  obtain ⟨group, mem, sent⟩ := mem_flatMap.mp sent
  obtain ⟨⟨id, listed⟩, entry, rfl⟩ := List.mem_map.mp mem
  rw [group_of_signalGroup sent]
  exact ⟨id, AList.mem_lookup_iff.mpr entry⟩

theorem lookup_of_stopDue {workers : Workers} {id group : ℕ}
    (sent : target ∈ (workers.stopDue id group).1) :
    (id, group) ∈ workers.stops ∧ target.1 = group ∧ workers.runs.lookup id = some group := by
  unfold stopDue at sent
  split_ifs at sent with waits listed
  · exact ⟨contains_iff_mem.mp waits, group_of_signalGroup sent, listed⟩
  · cases sent
  · cases sent

section Effect

variable {workers after : Workers} {event : Event} {sent : Sent}
  (effect : Effect workers event sent after)

include effect

/-- Every signal is sent with the list locked, to a group found on it. -/
theorem lookup_of_sent (target_sent : target ∈ sent) :
    ∃ id, workers.runs.lookup id = some target.1 := by
  cases effect with
  | killed id group idle listed => exact ⟨id, group_of_signalGroup target_sent ▸ listed⟩
  | wakes id group waits =>
    split_ifs at target_sent with listed
    · exact ⟨id, group_of_signalGroup target_sent ▸ listed⟩
    · cases target_sent
  | shutdown idle => exact lookup_of_groups target_sent
  | closed any stopping =>
    split_ifs at target_sent
    · exact lookup_of_groups target_sent
    · cases target_sent
  | _ => cases target_sent

/-- Where a delayed stop comes from. -/
theorem stops_of_effect : ∀ stop ∈ after.stops,
    stop ∈ workers.stops ∨ workers.main = .signalled stop.1 stop.2 := by
  intro stop waits
  cases effect with
  | sleeps id group signalled =>
    rcases mem_cons.mp waits with rfl | waits
    · exact .inr signalled
    · exact .inl waits
  | wakes id group _ => exact .inl (mem_of_mem_erase waits)
  | _ => exact .inl waits

theorem signalled_of_effect {id group : ℕ} (signalled : after.main = .signalled id group) :
    workers.main = .signalled id group ∨ event = .kill id ∧ sent = signalGroup .term group := by
  cases effect with
  | killed id group idle listed =>
    cases signalled
    exact .inr ⟨rfl, rfl⟩
  | _ => first | exact .inl signalled | cases signalled

end Effect

/-! ### Whole runs -/

section Runs

variable {owner : ℕ → Owner} {history : List (Event × Sent)} {workers : Workers}

theorem sound_of_run (run : Run (machine perform (initial owner)) history workers) :
    Sound workers := by
  apply run.invariant (fun _ workers => Sound workers)
  · rintro state rfl
    exact sound_initial owner
  · intro history state label state' _ sound step
    have effect := perform_effect state label.1
    rw [step] at effect
    exact sound.effect effect

/-- A stop that is to come, and its kill. -/
def Asked (history : List (Event × Sent)) (workers : Workers) : Prop :=
  (∀ id group, workers.main = .signalled id group →
    (Event.kill id, signalGroup .term group) ∈ history) ∧
  ∀ stop ∈ workers.stops, (Event.kill stop.1, signalGroup .term stop.2) ∈ history

theorem asked_of_run (run : Run (machine perform (initial owner)) history workers) :
    Asked history workers := by
  apply run.invariant Asked
  · rintro state rfl
    constructor
    · intro id group signalled
      cases signalled
    · intro stop waits
      cases waits
  · rintro history state ⟨event, sent⟩ state' _ ⟨signalled, stops⟩ step
    have effect := perform_effect state event
    rw [show state.perform event = (sent, state') from step] at effect
    constructor
    · intro id group now
      rcases signalled_of_effect effect now with before | ⟨rfl, rfl⟩
      · exact mem_cons_of_mem _ (signalled id group before)
      · exact mem_cons_self
    · intro stop waits
      apply mem_cons_of_mem
      rcases stops_of_effect effect stop waits with before | before
      · exact stops stop before
      · exact signalled stop.1 stop.2 before

/-- Signals reach the helper's own runs only. A target is the group of a run that is on the list
and that the operating system still has under that group, so it is not reaped; the last signal of
a kill goes to a run under the id the kill named. -/
theorem signals_reach_own_runs (run : Run (machine perform (initial owner)) history workers) :
    (∀ event, ∀ target ∈ (workers.perform event).1, ∃ child ∈ workers.listed,
      workers.runs.lookup child.id = some target.1 ∧ child.group = target.1 ∧
        workers.owner target.1 = .child child.serial) ∧
    (∀ id group, ∀ target ∈ (workers.stopDue id group).1,
      (Event.kill id, signalGroup .term group) ∈ history ∧ target.1 = group ∧
        ∃ child ∈ workers.listed, child.id = id ∧ child.group = group) ∧
    (∀ child ∈ workers.listed, ∀ other ∈ workers.listed, child.id = other.id → child = other) ∧
    workers.listed.length ≤ maxRuns ∧ workers.runs.entries.length ≤ maxRuns := by
  have sound := sound_of_run run
  have sized := sound.mirrored.length_eq
  rw [length_map] at sized
  refine ⟨?_, ?_, ?_, sized ▸ sound.bounded, sound.bounded⟩
  · intro event target sent
    obtain ⟨id, found⟩ := lookup_of_sent (perform_effect workers event) sent
    obtain ⟨child, mem, rfl, grouped, owned⟩ := sound.of_lookup found
    exact ⟨child, mem, found, grouped, owned⟩
  · intro id group target sent
    obtain ⟨waits, same, found⟩ := lookup_of_stopDue sent
    obtain ⟨child, mem, named, grouped, -⟩ := sound.of_lookup found
    exact ⟨(asked_of_run run).2 (id, group) waits, same, child, mem, named, grouped⟩
  · intro child mem other otherMember same
    exact inj_on_of_nodup_map sound.distinct mem otherMember same

/-- Run 1 is stopped and reaped, and its group goes to another process before the last signal of
the stop is due; run 2 is on the list. -/
def reuse : List Event :=
  [.exec 1, .spawned (some 100), .inserted, .kill 1, .stopStarted, .left 0, .reaped 0, .taken 100,
    .exec 2, .spawned (some 101), .inserted]

theorem signals_reach_own_runs_reused :
    ((replay perform [] (initial fun _ => .free) reuse).2.stopDue 1 100).1 = [] ∧
      ((replay perform [] (initial fun _ => .free) reuse).2.perform (.kill 2)).1 =
        [(101, .term)] ∧
      ∃ child ∈ (replay perform [] (initial fun _ => .free) reuse).2.listed,
        child.group = 101 := by
  have run : Run (machine perform (initial fun _ => .free)) [] (initial fun _ => .free) :=
    .start rfl
  have signals := signals_reach_own_runs (run_replay run reuse)
  have sent : ((replay perform [] (initial fun _ => .free) reuse).2.perform (.kill 2)).1 =
      [(101, .term)] := by decide +kernel
  obtain ⟨child, mem, -, grouped, -⟩ := signals.1 (.kill 2) (101, .term)
    (by rw [sent]; exact mem_singleton_self _)
  exact ⟨by decide +kernel, sent, child, mem, grouped⟩

end Runs

end Workers

end QsBitwarden.Vault
