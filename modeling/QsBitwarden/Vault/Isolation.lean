import QsBitwarden.Vault.Helper

/-! Owns the isolation of vault generations: what a run keeps belongs to the vault that was
unlocked when it started, for any order of requests and run ends. It does not own what a
vault read hands to the panel. -/

namespace QsBitwarden.Vault

open Lib List Option

variable {libraries : Libraries}

/-! ### What the store keeps -/

namespace Store

/-- The value is the session key or one of the secrets. -/
def Holds (store : Store) (value : String) : Prop :=
  store.session = some value ∨ ∃ name, store.secret name = some value

/-- Nothing is held but secrets named in `keep`. -/
structure Emptied (keep : List String) (store : Store) : Prop where
  session : store.session = none
  items : store.items = []
  secrets : ∀ name ∈ store.secrets, name ∈ keep

theorem emptied_forget (store : Store) (keep : List String) : Emptied keep (store.forget keep) where
  session := rfl
  items := rfl
  secrets name mem := by
    have kept := (mem_retain.mp mem).2
    exact of_decide_eq_true kept

variable {store : Store} {keep : List String}

section

variable (emptied : Emptied keep store)

include emptied

theorem Emptied.forget (others : List String) :
    Emptied keep (store.forget others) where
  session := rfl
  items := rfl
  secrets name mem := emptied.secrets name (mem_retain.mp mem).1

/-- With no session key there is nothing to copy. -/
theorem Emptied.holdSession (name : String) : (store.holdSession name).2 = store := by
  unfold Store.holdSession
  rw [emptied.session]

theorem Emptied.forgetSecret (name : String) :
    Emptied keep (store.forgetSecret name) where
  session := emptied.session
  items := emptied.items
  secrets other mem := by
    have both := AList.mem_erase.mp mem
    exact emptied.secrets other both.2

theorem Emptied.forgetItem (id : String) :
    Emptied keep (store.forgetItem id) := by
  unfold Store.forgetItem
  cases store.index.lookup id with
  | none => exact emptied
  | some position =>
    have none_left : store.items.eraseIdx position = [] := by
      rw [emptied.items]
      rfl
    exact ⟨emptied.session, none_left, emptied.secrets⟩

end

/-! ### Only a forget changes the generation -/

theorem generation_holdSession (name : String) :
    (store.holdSession name).2.generation = store.generation := by
  unfold Store.holdSession
  cases store.session <;> rfl

theorem generation_forgetItem (id : String) :
    (store.forgetItem id).generation = store.generation := by
  unfold Store.forgetItem
  cases store.index.lookup id <;> rfl

theorem generation_hold (item : Fields) :
    (store.hold libraries item).generation = store.generation := by
  unfold Store.hold
  cases (Fields.get item "id").bind Json.asStr with
  | none => rfl
  | some id =>
    dsimp only
    cases store.index.lookup id <;> rfl

theorem generation_holdValue (value : Json) :
    (store.holdValue libraries value).generation = store.generation := by
  cases value with
  | object item => exact generation_hold item
  | _ => rfl

theorem generation_holdAll (values : List Json) :
    (values.foldl (holdValue libraries) store).generation = store.generation := by
  induction values generalizing store with
  | nil => rfl
  | cons value rest ih => rw [foldl_cons, ih, generation_holdValue]

theorem generation_stripVault (raw : String) (replace : Bool) :
    (store.stripVault libraries raw replace).2.generation = store.generation := by
  unfold Store.stripVault
  split
  · dsimp only
    rw [generation_holdAll, generation_holdAll]
    cases replace <;> rfl
  · rfl

end Store

/-! ### Keeping output -/

section Keep

variable {store : Store} {generation : ℕ} {capture : Capture} {code : ℤ} {text : String}

theorem keepVault_store {current replace : Bool} :
    (keepVault libraries store current code text replace).2.2.2 = store ∨ current = true ∧
      (keepVault libraries store current code text replace).2.2.2.generation =
        store.generation := by
  unfold keepVault
  dsimp only
  split_ifs with read
  · exact .inr ⟨read.2, Store.generation_stripVault text replace⟩
  · exact .inl rfl

/-- Only a run of the current generation changes the store, and none changes the generation. -/
theorem keep_store :
    (keep libraries store generation capture code text).2.2.2 = store ∨
      store.generation = generation ∧
      (keep libraries store generation capture code text).2.2.2.generation =
        store.generation := by
  unfold keep
  cases capture with
  | plain => exact .inl rfl
  | session =>
    dsimp only
    cases (if code = 0 then extractSession text.toList else none) with
    | none => exact .inl rfl
    | some key =>
      dsimp only
      split_ifs with current
      · exact .inr ⟨of_decide_eq_true current, rfl⟩
      · exact .inl rfl
  | vault => exact keepVault_store.imp_right (And.imp_left of_decide_eq_true)
  | vaultMerge => exact keepVault_store.imp_right (And.imp_left of_decide_eq_true)
  | secret name =>
    dsimp only
    split_ifs with current
    · exact .inr ⟨of_decide_eq_true current.1, rfl⟩
    · exact .inl rfl
  | pinentry name =>
    dsimp only
    split_ifs with current
    · split
      · exact .inr ⟨of_decide_eq_true current.1, rfl⟩
      · exact .inl rfl
    · exact .inl rfl

end Keep

/-! ### What one section does -/

variable (libraries) in
/-- The store after a section, by what the section says it did. -/
inductive Changes (helper : Helper) : Change → Store → Prop
  | none : Changes helper .none helper.store
  | forgot (keep : List String) : Changes helper (.forgot keep) (helper.store.forget keep)
  | heldSession (name : String) :
      Changes helper (.heldSession name) (helper.store.holdSession name).2
  | forgotSecret (name : String) :
      Changes helper (.forgotSecret name) (helper.store.forgetSecret name)
  | forgotItem (id : String) : Changes helper (.forgotItem id) (helper.store.forgetItem id)
  | kept (run : ActiveRun) (code : ℤ) (text : String) (ended : run ∈ helper.unlisted) :
      Changes helper (.kept run)
        (keep libraries helper.store run.generation run.capture code text).2.2.2

variable (libraries) in
/-- All that the isolation of generations needs to know of a section. -/
structure Effect (helper : Helper) (result : Outcome × Helper) : Prop where
  before : result.1.before = helper.store
  after : result.1.after = result.2.store
  changes : Changes libraries helper result.1.change result.2.store
  launched : ∀ run, result.1.launched = some run →
    run.generation = helper.store.generation ∧
      ∀ entry ∈ run.command.injected, helper.store.Holds entry.2
  runs : ∀ run, run ∈ result.2.listed ∨ run ∈ result.2.unlisted →
    (run ∈ helper.listed ∨ run ∈ helper.unlisted) ∨ result.1.launched = some run

namespace Helper

variable {helper : Helper}

theorem effect_of_idle {result : Outcome × Helper} (before : result.1.before = helper.store)
    (after : result.1.after = helper.store) (store : result.2.store = helper.store)
    (change : result.1.change = .none) (launched : result.1.launched = none)
    (listed : result.2.listed = helper.listed) (unlisted : result.2.unlisted = helper.unlisted) :
    Effect libraries helper result where
  before := before
  after := after.trans store.symm
  changes := by
    rw [change, store]
    exact .none
  launched run started := by
    rw [launched] at started
    cases started
  runs run mem := by
    rw [listed, unlisted] at mem
    exact Or.inl mem

theorem effect_quiet (exits : List Exit) : Effect libraries helper (helper.quiet exits) :=
  effect_of_idle rfl rfl rfl rfl rfl rfl rfl

theorem effect_withStore {change : Change} {store : Store}
    (changes : Changes libraries helper change store) :
    Effect libraries helper (helper.withStore change store) where
  before := rfl
  after := rfl
  changes := changes
  launched run started := by cases started
  runs run mem := Or.inl mem

theorem holds_of_read {store : Store} {source : Source} {value : String}
    (held : source.read store = some value) : store.Holds value := by
  cases source with
  | session => exact Or.inl held
  | secret name => exact Or.inr ⟨name, held⟩

/-- Injected values are values held when they are read. -/
theorem holds_of_inject {store : Store} {injects injected : List (String × String)}
    (read : inject store injects = some injected) :
    ∀ entry ∈ injected, store.Holds entry.2 := by
  induction injects generalizing injected with
  | nil =>
    cases read
    simp
  | cons first rest ih =>
    simp only [inject, bind_eq_bind, bind_eq_some_iff] at read
    obtain ⟨source, _, following, readRest, result⟩ := read
    cases result
    have later := ih readRest
    cases held : source.read store with
    | none => exact later
    | some value =>
      intro entry mem
      rcases mem_cons.mp mem with here | below
      · rw [here]
        exact holds_of_read held
      · exact later entry below

section Launch

variable {run : ActiveRun} (spawned : Option ℕ)

theorem effect_launch (generation : run.generation = helper.store.generation)
    (injected : ∀ entry ∈ run.command.injected, helper.store.Holds entry.2) :
    Effect libraries helper (helper.launch run spawned) := by
  cases spawned with
  | none => exact effect_quiet _
  | some group =>
    refine ⟨rfl, rfl, .none, ?_, ?_⟩
    · intro other started
      cases started
      exact ⟨generation, injected⟩
    · intro other mem
      rcases mem with listed | unlisted
      · rcases mem_cons.mp listed with here | below
        · exact Or.inr (by rw [here]; rfl)
        · exact Or.inl (Or.inl below)
      · exact Or.inl (Or.inr unlisted)

theorem effect_launchDetached (generation : run.generation = helper.store.generation)
    (injected : ∀ entry ∈ run.command.injected, helper.store.Holds entry.2) :
    Effect libraries helper (helper.launchDetached run spawned) := by
  unfold launchDetached
  by_cases full : maxDetached ≤ helper.detached
  · rw [if_pos full]
    exact effect_quiet _
  · rw [if_neg full]
    cases spawned with
    | none => exact effect_quiet _
    | some group =>
      refine ⟨rfl, rfl, .none, ?_, fun other mem => Or.inl mem⟩
      intro other started
      cases started
      exact ⟨generation, injected⟩

end Launch

theorem effect_exec (id : ℕ) (argv : List String) (env : List (String × Option String))
    (injects : List (String × String)) (capture stdin : Option String) (detach : Bool)
    (spawned : Option ℕ) :
    Effect libraries helper
      (helper.exec id argv env injects capture stdin detach spawned) := by
  unfold exec
  cases Capture.parse capture with
  | none => exact effect_quiet _
  | some capture =>
    dsimp only
    split
    · exact effect_quiet _
    · cases read : inject helper.store injects with
      | none => exact effect_quiet _
      | some injected =>
        dsimp only
        have held := holds_of_inject read
        split
        · exact effect_launchDetached spawned rfl held
        · split
          · exact effect_quiet _
          · split
            · exact effect_quiet _
            · exact effect_launch spawned rfl held

theorem effect_kill (id : ℕ) : Effect libraries helper (helper.kill id) := by
  unfold kill
  cases helper.runs.lookup id with
  | none => exact effect_quiet _
  | some group => exact effect_of_idle rfl rfl rfl rfl rfl rfl rfl

theorem effect_handle (request : Request) (spawned : Option ℕ) :
    Effect libraries helper (helper.handle request spawned) := by
  cases request with
  | exec id argv env injects capture stdin detach =>
    exact effect_exec id argv env injects capture stdin detach spawned
  | kill id => exact effect_kill id
  | forget keep => exact effect_withStore (.forgot keep)
  | holdSession name => exact effect_withStore (.heldSession name)
  | forgetSecret name => exact effect_withStore (.forgotSecret name)
  | forgetItem id => exact effect_withStore (.forgotItem id)
  | read => exact effect_quiet _
  | shutdown => exact effect_of_idle rfl rfl rfl rfl rfl rfl rfl

theorem effect_leave (serial : ℕ) : Effect libraries helper (helper.leave serial) := by
  unfold leave
  cases found : helper.listed.find? (·.serial = serial) with
  | none => exact effect_quiet _
  | some run =>
    have mem : run ∈ helper.listed := mem_of_find?_eq_some found
    refine ⟨rfl, rfl, .none, fun other started => (by cases started), ?_⟩
    intro other either
    rcases either with listed | unlisted
    · exact Or.inl (Or.inl (mem_of_mem_erase listed))
    · rcases mem_cons.mp unlisted with here | below
      · exact Or.inl (Or.inl (here ▸ mem))
      · exact Or.inl (Or.inr below)

theorem effect_finish (serial : ℕ) (code : ℤ) (output : Option String) (err : String) :
    Effect libraries helper (helper.finish libraries serial code output err) := by
  unfold finish
  cases found : helper.unlisted.find? (·.serial = serial) with
  | none => exact effect_quiet _
  | some run =>
    have mem : run ∈ helper.unlisted := mem_of_find?_eq_some found
    refine ⟨rfl, rfl, .kept run _ _ mem, fun other started => (by cases started), ?_⟩
    intro other either
    rcases either with listed | unlisted
    · exact Or.inl (Or.inl listed)
    · exact Or.inl (Or.inr (mem_of_mem_erase unlisted))

theorem effect_stopDue (id group : ℕ) : Effect libraries helper (helper.stopDue id group) := by
  unfold stopDue
  split
  · exact effect_of_idle rfl rfl rfl rfl rfl rfl rfl
  · exact effect_quiet _

theorem effect_close : Effect libraries helper helper.close := by
  unfold close
  cases helper.phase with
  | serving => exact effect_quiet _
  | stopped => exact effect_quiet _
  | stopping any =>
    exact ⟨rfl, rfl, .forgot [], fun other started => (by cases started),
      fun other mem => Or.inl mem⟩

theorem effect_perform (event : Event) :
    Effect libraries helper (helper.perform libraries event) := by
  cases event with
  | request request spawned =>
    unfold perform
    dsimp only
    split
    · exact effect_handle request spawned
    · exact effect_quiet _
  | left serial => exact effect_leave serial
  | finished serial code output err => exact effect_finish serial code output err
  | detachedEnded => exact effect_of_idle rfl rfl rfl rfl rfl rfl rfl
  | stopDue id group => exact effect_stopDue id group
  | closed => exact effect_close

end Helper

/-! ### Histories -/

/-- How many values a generation has before it comes round. -/
def generations : ℕ := 18446744073709551616

def Change.isForget : Change → Bool
  | .forgot _ => true
  | _ => false

abbrev Step := Event × Outcome

def forgetCount (history : List Step) : ℕ := history.countP fun step => step.2.change.isForget

theorem forgetCount_cons (step : Step) (past : List Step) :
    forgetCount (step :: past) =
      forgetCount past + if step.2.change.isForget then 1 else 0 :=
  countP_cons

theorem forgetCount_append (recent past : List Step) :
    forgetCount (recent ++ past) = forgetCount recent + forgetCount past :=
  countP_append

/-- Only a forget moves the generation on. -/
theorem Changes.generation {helper : Helper} {change : Change} {store : Store}
    (changes : Changes libraries helper change store) :
    store.generation =
      if change.isForget then wrappingAdd helper.store.generation 1
      else helper.store.generation := by
  cases changes with
  | none => rfl
  | forgot keep => rfl
  | heldSession name => exact Store.generation_holdSession name
  | forgotSecret name => rfl
  | forgotItem id => exact Store.generation_forgetItem id
  | kept run code text ended =>
    rcases keep_store with same | changed
    · exact congrArg Store.generation same
    · exact changed.2

theorem Changes.of_kept {helper : Helper} {run : ActiveRun} {store : Store}
    (changes : Changes libraries helper (.kept run) store) :
    run ∈ helper.unlisted ∧ (helper.store.generation ≠ run.generation → store = helper.store) := by
  cases changes with
  | kept _ code text ended =>
    exact ⟨ended, fun stale => keep_store.resolve_right fun changed => stale changed.1⟩

/-- What is true of every section of a history, given the sections before it. -/
structure Sound (step : Step) (past : List Step) : Prop where
  generation : step.2.before.generation = forgetCount past % generations
  launched : ∀ run, step.2.launched = some run →
    run.generation = step.2.before.generation ∧
      ∀ entry ∈ run.command.injected, step.2.before.Holds entry.2
  started : ∀ run, step.2.change = .kept run → ∃ start ∈ past, start.2.launched = some run
  stale : ∀ run, step.2.change = .kept run → step.2.before.generation ≠ run.generation →
    step.2.after = step.2.before

/-- The history is sound, the generation counts its forgets, and every run in flight was
launched in it. -/
structure Recorded (history : List Step) (helper : Helper) : Prop where
  sound : Throughout Sound history
  generation : helper.store.generation = forgetCount history % generations
  started : ∀ run, run ∈ helper.listed ∨ run ∈ helper.unlisted →
    ∃ start ∈ history, start.2.launched = some run

theorem recorded_initial : Recorded [] Helper.initial where
  sound := trivial
  generation := rfl
  started run mem := by simp [Helper.initial] at mem

section Next

variable {history : List Step} {helper : Helper} {event : Event} {result : Outcome × Helper}

section

variable (recorded : Recorded history helper)

include recorded

section

variable (effect : Effect libraries helper result)

include effect

theorem sound_of_effect
    : Sound (event, result.1) history where
  generation := by
    rw [effect.before]
    exact recorded.generation
  launched run started := by
    rw [effect.before]
    exact effect.launched run started
  started run kept := by
    have changes := effect.changes
    rw [show result.1.change = .kept run from kept] at changes
    exact recorded.started run (Or.inr changes.of_kept.1)
  stale run kept stale := by
    have changes := effect.changes
    rw [show result.1.change = .kept run from kept] at changes
    rw [effect.before] at stale
    exact effect.after.trans ((changes.of_kept.2 stale).trans effect.before.symm)

theorem generation_of_effect :
    result.2.store.generation = forgetCount ((event, result.1) :: history) % generations := by
  rw [forgetCount_cons, effect.changes.generation, recorded.generation]
  by_cases forgets : result.1.change.isForget
  · rw [if_pos forgets, if_pos forgets]
    exact Nat.mod_add_mod _ _ _
  · rw [if_neg forgets, if_neg forgets]
    rfl

theorem recorded_of_effect :
    Recorded ((event, result.1) :: history) result.2 where
  sound := ⟨sound_of_effect recorded effect, recorded.sound⟩
  generation := generation_of_effect recorded effect
  started run mem := by
    rcases effect.runs run mem with earlier | now
    · obtain ⟨start, inHistory, launched⟩ := recorded.started run earlier
      exact ⟨start, mem_cons_of_mem _ inHistory, launched⟩
    · exact ⟨(event, result.1), mem_cons_self, now⟩

end

end

end Next

variable (libraries) in
/-- The helper from its start, under any order of sections. -/
abbrev vaultHelper : System Helper Step := machine (Helper.perform libraries) Helper.initial

theorem effect_of_step {before after : Helper} {step : Step}
    (taken : (vaultHelper libraries).step before step after) :
    Effect libraries before (step.2, after) := by
  have result : before.perform libraries step.1 = (step.2, after) := taken
  rw [← result]
  exact Helper.effect_perform step.1

variable {history : List Step} {helper : Helper}

theorem run_recorded (run : Run (vaultHelper libraries) history helper) :
    Recorded history helper := by
  refine run.invariant Recorded ?_ ?_
  · intro state initial
    rw [show state = Helper.initial from initial]
    exact recorded_initial
  · intro past before step after _ recorded taken
    exact recorded_of_effect recorded (effect_of_step taken)

/-! ### Isolation -/

/-- A run that changes the store ends in the generation it was launched in. -/
theorem forgetCount_eq_of_kept {step start : Step} {past between earlier : List Step}
    {run : ActiveRun} (sound : Sound step past) (startSound : Sound start earlier)
    (few : forgetCount past < generations) (kept : step.2.change = .kept run)
    (changed : step.2.after ≠ step.2.before) (split : past = between ++ start :: earlier)
    (launched : start.2.launched = some run) : forgetCount past = forgetCount earlier := by
  have current : step.2.before.generation = run.generation := by
    by_contra stale
    exact changed (sound.stale run kept stale)
  have fewer : forgetCount earlier < generations := by
    rw [split, forgetCount_append, forgetCount_cons] at few
    omega
  rw [sound.generation, (startSound.launched run launched).1, startSound.generation,
    Nat.mod_eq_of_lt few, Nat.mod_eq_of_lt fewer] at current
  exact current

theorem not_isForget_of_forgetCount {between earlier : List Step} {start : Step}
    (same : forgetCount (between ++ start :: earlier) = forgetCount earlier) :
    ∀ other ∈ between, other.2.change.isForget = false := by
  rw [forgetCount_append, forgetCount_cons] at same
  have none_between : forgetCount between = 0 := by omega
  intro other mem
  exact eq_false_of_ne_true (countP_eq_zero.mp none_between other mem)

/-- A run launched at or before a forget keeps nothing after it. -/
theorem unchanged_of_started_before {step forget : Step} {recent past : List Step}
    {run : ActiveRun} (sound : Throughout Sound (step :: (recent ++ forget :: past)))
    (few : forgetCount (recent ++ forget :: past) < generations)
    (kept : step.2.change = .kept run) (forgets : forget.2.change.isForget = true)
    {start : Step} (before : start ∈ forget :: past) (launched : start.2.launched = some run) :
    step.2.after = step.2.before := by
  by_contra changed
  obtain ⟨between, earlier, split⟩ := append_of_mem before
  have whole : recent ++ forget :: past = (recent ++ between) ++ start :: earlier := by
    rw [split, append_assoc]
  have startSound := throughout_iff_split.mp sound.2 _ start earlier whole
  have same := forgetCount_eq_of_kept sound.1 startSound few kept changed whole launched
  have suffix : (start :: earlier).Sublist (forget :: past) := by
    rw [split]
    exact sublist_append_right _ _
  have fewer : forgetCount earlier ≤ forgetCount past := suffix.tail.countP_le
  rw [forgetCount_append, forgetCount_cons, if_pos forgets] at same
  omega

/-- The run ends after `older`, in which it was launched. -/
def StartedIn (older : List Step) (step : Step) : Prop :=
  ∃ run, step.2.change = .kept run ∧ ∃ start ∈ older, start.2.launched = some run

/-- Runs launched since the forget at the end of `recent` have added nothing. -/
def NothingAdded : List Step → Prop :=
  Throughout fun step older => StartedIn older step → step.2.after = step.2.before

/-- The changes that are no run's leave an emptied store emptied. -/
theorem Changes.emptied {change : Change} {store : Store} {keep : List String}
    (changes : Changes libraries helper change store) (emptied : helper.store.Emptied keep)
    (kept : ∀ run, change = .kept run → store = helper.store) : store.Emptied keep := by
  cases changes with
  | none => exact emptied
  | forgot others => exact emptied.forget others
  | heldSession name =>
    rw [emptied.holdSession name]
    exact emptied
  | forgotSecret name => exact emptied.forgetSecret name
  | forgotItem id => exact emptied.forgetItem id
  | kept run code text ended =>
    rw [kept run rfl]
    exact emptied

/-- What a forget leaves is all there is until a run launched after it adds something. The
induction is on the sections since the forget. -/
theorem emptied_since_forget {recent past : List Step} {forget : Step} {keep : List String}
    (run : Run (vaultHelper libraries) (recent ++ forget :: past) helper)
    (few : forgetCount (recent ++ forget :: past) < generations)
    (forgets : forget.2.change = .forgot keep) (nothing : NothingAdded recent) :
    helper.store.Emptied keep := by
  induction recent generalizing helper with
  | nil =>
    cases run with
    | next earlier taken =>
      have changes := (effect_of_step taken).changes
      rw [show (forget.2, helper).1.change = .forgot keep from forgets] at changes
      change Changes libraries _ _ helper.store at changes
      generalize helper.store = store at changes
      cases changes with
      | forgot _ => exact Store.emptied_forget _ keep
  | cons step rest ih =>
    have sound := (run_recorded run).sound
    have fewer : forgetCount (rest ++ forget :: past) < generations := by
      rw [cons_append, forgetCount_cons] at few
      omega
    cases run with
    | next earlier taken =>
      have effect := effect_of_step taken
      refine effect.changes.emptied (ih earlier fewer nothing.2) ?_
      intro kept isKept
      have unchanged : step.2.after = step.2.before := by
        obtain ⟨start, mem, launched⟩ := sound.1.started kept isKept
        rcases mem_append.mp mem with since | before
        · exact nothing.1 ⟨kept, isKept, start, since, launched⟩
        · exact unchanged_of_started_before sound fewer isKept
            (by rw [forgets]; rfl) before launched
      exact effect.after.symm.trans (unchanged.trans effect.before)

/-- A run changes the store only while the generation is the one it was launched under:
no forget lies between. After a forget nothing is held but what it kept, until a run
launched later adds something; a copy of the session key adds nothing before that, since
there is none. Every launch records the generation of the store whose values it injects. -/
theorem generation_isolation (run : Run (vaultHelper libraries) history helper)
    (few : forgetCount history < generations) :
    (∀ recent step past ended, history = recent ++ step :: past →
      step.2.change = .kept ended → step.2.after ≠ step.2.before →
        step.2.before.generation = ended.generation ∧
        (∃ start ∈ past, start.2.launched = some ended) ∧
        ∀ between start earlier, past = between ++ start :: earlier →
          start.2.launched = some ended →
            start.2.before.generation = ended.generation ∧
            ∀ other ∈ between, other.2.change.isForget = false) ∧
    (∀ recent forget past keep, history = recent ++ forget :: past →
      forget.2.change = .forgot keep → NothingAdded recent → helper.store.Emptied keep) ∧
    (∀ step ∈ history, ∀ launched, step.2.launched = some launched →
      launched.generation = step.2.before.generation ∧
      ∀ entry ∈ launched.command.injected, step.2.before.Holds entry.2) := by
  have each := throughout_iff_split.mp (run_recorded run).sound
  refine ⟨?_, ?_, ?_⟩
  · intro recent step past ended split kept changed
    have sound := each recent step past split
    have fewer : forgetCount past < generations := by
      rw [split, forgetCount_append, forgetCount_cons] at few
      omega
    have current : step.2.before.generation = ended.generation := by
      by_contra stale
      exact changed (sound.stale ended kept stale)
    refine ⟨current, sound.started ended kept, ?_⟩
    intro between start earlier inside launched
    have startSound := each (recent ++ step :: between) start earlier (by simp [split, inside])
    have same := forgetCount_eq_of_kept sound startSound fewer kept changed inside launched
    rw [inside] at same
    exact ⟨(startSound.launched ended launched).1.symm, not_isForget_of_forgetCount same⟩
  · intro recent forget past keep split forgets nothing
    subst split
    exact emptied_since_forget run few forgets nothing
  · intro step mem launched started
    obtain ⟨recent, past, split⟩ := append_of_mem mem
    exact (each recent step past split).launched launched started

/-- A password is kept, an unlock starts with it, the vault is locked, and the unlock ends
with a session key. -/
def outlivedUnlock : List Event :=
  [.request (.exec 1 ["pinentry"] [] [] (some "secret:pw") none false) (some 100),
    .left 0, .finished 0 0 (some "hunter2") "",
    .request (.exec 2 ["bw", "unlock"] [] [("PW", "secret:pw")] (some "session") none false)
      (some 101),
    .request (.forget ["pw"]) none,
    .left 1, .finished 1 0 (some "abcdefghijklmnopqrstuvwxyz0123456789") ""]

abbrev outlived : List Step × Helper :=
  replay (Helper.perform jsonLibraries) [] .initial outlivedUnlock

theorem generation_isolation_outlived :
    forgetCount outlived.1 < generations ∧ outlived.2.store.secret "pw" = some "hunter2" ∧
      outlived.2.store.Emptied ["pw"] := by
  have few : forgetCount outlived.1 < generations := by decide +kernel
  refine ⟨few, by decide +kernel, ?_⟩
  have run : Run (vaultHelper jsonLibraries) outlived.1 outlived.2 :=
    run_replay (.start rfl) outlivedUnlock
  have idle : ∀ start ∈ (outlived.1.drop 1).take 1, start.2.launched = none := by decide +kernel
  refine (generation_isolation run few).2.1 [_, _] _ _ ["pw"] rfl (by decide +kernel)
    ⟨?_, ?_, trivial⟩
  · rintro ⟨ended, _, start, mem, launched⟩
    rw [show start.2.launched = none from idle start mem] at launched
    cases launched
  · rintro ⟨ended, _, start, mem, launched⟩
    cases mem

end QsBitwarden.Vault
