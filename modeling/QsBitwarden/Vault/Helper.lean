import QsBitwarden.Lib.History
import QsBitwarden.Vault.Store

/-! Owns the helper's requests, its runs and what it keeps of their output (`main.rs`,
`control.rs`, `assuan.rs`), as a machine whose events are the critical sections of the
main loop and of the threads. What a command prints and whether it starts are in the
events. It does not own the reading of the panel's lines or the answers to reads. -/

namespace QsBitwarden.Vault

open Lib

/-! ### Names and captures -/

def stripPrefix (start text : String) : Option String :=
  if start.toList.isPrefixOf text.toList then some (String.ofList (text.toList.drop start.length))
  else none

def validName (name : String) : Bool :=
  name ≠ "" && name.length ≤ 64 && name.toList.all fun char =>
    isAsciiAlphanumeric char || char = '_'

def validEnvName (name : String) : Bool :=
  name ≠ "" && name.length ≤ 128 && !(name.toList.head?.any isAsciiDigit) &&
    name.toList.all fun char => isAsciiAlphanumeric char || char = '_'

/-- What to do with a run's stdout. -/
inductive Capture
  | plain
  | session
  | vault
  | vaultMerge
  | secret (name : String)
  | pinentry (name : String)
  deriving DecidableEq, Repr

def Capture.parse (value : Option String) : Option Capture :=
  match value.getD "plain" with
  | "plain" => some .plain
  | "session" => some .session
  | "vault" => some .vault
  | "vaultMerge" => some .vaultMerge
  | other =>
    match (stripPrefix "secret:" other).filter validName with
    | some name => some (.secret name)
    | none => ((stripPrefix "pinentry:" other).filter validName).map .pinentry

/-- A held value an `inject` entry names. -/
inductive Source
  | session
  | secret (name : String)
  deriving DecidableEq, Repr

def parseSource (value : String) : Option Source :=
  if value = "session" then some .session
  else ((stripPrefix "secret:" value).filter validName).map .secret

def Source.read (store : Store) : Source → Option String
  | .session => store.session
  | .secret name => store.secret name

/-! ### Assuan data -/

def hexDigit (byte : UInt8) : Option ℕ :=
  let code := byte.toNat
  if 48 ≤ code ∧ code ≤ 57 then some (code - 48)
  else if 65 ≤ code ∧ code ≤ 70 then some (code - 55)
  else if 97 ≤ code ∧ code ≤ 102 then some (code - 87)
  else none

/-- The bytes of a `D` line; none for a `%` without two hex digits or for a NUL. -/
def decodeBytes : Bytes → Option Bytes
  | [] => some []
  | byte :: rest =>
    if byte = 37 then
      match rest with
      | high :: low :: rest => do
        let upper ← hexDigit high
        let lower ← hexDigit low
        if upper * 16 + lower = 0 then none
        else (decodeBytes rest).map (UInt8.ofNat (upper * 16 + lower) :: ·)
      | _ => none
    else if byte = 0 then none
    else (decodeBytes rest).map (byte :: ·)

/-- `assuan::decode`: none also for bytes that are not UTF-8. -/
def decodeAssuan (encoded : String) : Option String :=
  (decodeBytes encoded.toUTF8.toList).bind fun bytes => String.fromUTF8? ⟨bytes.toArray⟩

/-! ### Runs -/

structure Command where
  argv : List String
  env : List (String × Option String)
  injected : List (String × String)
  stdin : Option String
  deriving DecidableEq, Repr

/-- A command that was started; `serial` tells apart runs that look the same. -/
structure ActiveRun where
  serial : ℕ
  id : ℕ
  capture : Capture
  generation : ℕ
  command : Command
  deriving DecidableEq, Repr

/-- The `exit` message; only a run that was started says what was kept. -/
structure Exit where
  id : ℕ
  code : ℤ
  out : String
  err : String
  /-- Whether a session key, and whether a secret, was kept. -/
  kept : Option (Bool × Bool)
  deriving DecidableEq, Repr

inductive Signal
  | term
  | kill
  deriving DecidableEq, Repr

def maxRuns : ℕ := 32
def maxDetached : ℕ := 8
def exitRefused : ℤ := 126
def exitNotStarted : ℤ := 127
def savedUnsanitized : String := "__QSBW_SAVED_UNSANITIZED__"
def heldSession : String := "HELD-BY-QS-BITWARDEN-VAULT-HELPER-SESSION"

inductive Request
  | exec (id : ℕ) (argv : List String) (env : List (String × Option String))
      (inject : List (String × String)) (capture stdin : Option String) (detach : Bool)
  | kill (id : ℕ)
  | forget (keep : List String)
  | holdSession (name : String)
  | forgetSecret (name : String)
  | forgetItem (id : String)
  /-- The requests that only read the store: hello, item, copies, fields, codes, search. -/
  | read
  | shutdown
  deriving DecidableEq, Repr

/-- One critical section. -/
inductive Event
  /-- A request, with the process group of the command an `exec` starts, if it starts. -/
  | request (request : Request) (spawned : Option ℕ)
  /-- A run's output ended and the run takes itself off the list. -/
  | left (serial : ℕ)
  /-- A run that left was reaped; no output if it was cut at the cap. -/
  | finished (serial : ℕ) (code : ℤ) (output : Option String) (err : String)
  | detachedEnded
  /-- The grace period of a `kill` is over. -/
  | stopDue (id group : ℕ)
  /-- The grace period of the shutdown is over. -/
  | closed
  deriving DecidableEq, Repr

/-- `stopping` remembers whether there was a run to wait for. -/
inductive Phase
  | serving
  | stopping (any : Bool)
  | stopped
  deriving DecidableEq, Repr

structure Helper where
  store : Store
  /-- Run id to process group. -/
  runs : AList fun _ : ℕ => ℕ
  listed : List ActiveRun
  /-- Off the list, output not yet kept. -/
  unlisted : List ActiveRun
  detached : ℕ
  /-- The ids and groups of kills in their grace period. -/
  stops : List (ℕ × ℕ)
  nextSerial : ℕ
  phase : Phase

/-- What a section does to the store. -/
inductive Change
  | none
  | forgot (keep : List String)
  | heldSession (name : String)
  | forgotSecret (name : String)
  | forgotItem (id : String)
  | kept (run : ActiveRun)
  deriving DecidableEq, Repr

structure Outcome where
  before : Store
  after : Store
  change : Change
  launched : Option ActiveRun
  exits : List Exit
  signals : List (ℕ × Signal)

def Helper.initial : Helper := ⟨.empty, ∅, [], [], 0, [], 0, .serving⟩

/-! ### What is kept of a run -/

section Keep

variable (libraries : Libraries)

/-- A read that is not stripped could be full of secrets: only the save's marker passes. -/
def keepVault (store : Store) (current : Bool) (code : ℤ) (text : String) (replace : Bool) :
    String × Bool × Bool × Store :=
  let stripped :=
    if code = 0 ∧ current then store.stripVault libraries text replace else (none, store)
  let marker := if trim text.toList = savedUnsanitized.toList then savedUnsanitized else ""
  (stripped.1.getD marker, false, false, stripped.2)

/-- The text for the panel, whether a session key and whether a secret was kept, and the
store. Only a run of the current generation changes it. -/
def keep (store : Store) (generation : ℕ) (capture : Capture) (code : ℤ) (text : String) :
    String × Bool × Bool × Store :=
  let current : Bool := store.generation = generation
  match capture with
  | .plain => (text, false, false, store)
  | .session =>
    match (if code = 0 then extractSession text.toList else none) with
    | none => (text, false, false, store)
    | some key =>
      let shown := String.ofList (replaceAll key heldSession.toList text.toList)
      if current then (shown, true, false, store.setSession (String.ofList key))
      else (shown, false, false, store)
  -- kept whatever the code: one of the panel's scripts prints a password and fails
  | .secret name =>
    if current ∧ text ≠ "" then ("", false, true, store.setSecret name text)
    else ("", false, false, store)
  | .pinentry name =>
    if current ∧ code = 0 then
      let answer := decodeAssuan (String.ofList (dropEndWhile (· = '\n') text.toList))
      match answer.filter (· ≠ "") with
      | some pin => ("", false, true, store.setSecret name pin)
      | none => ("", false, false, store)
    else ("", false, false, store)
  | .vault => keepVault libraries store current code text true
  | .vaultMerge => keepVault libraries store current code text false

end Keep

/-- Nothing is sent for a number that is no process id. -/
def signalGroup (signal : Signal) (group : ℕ) : List (ℕ × Signal) :=
  if 0 < group ∧ group ≤ 2147483647 then [(group, signal)] else []

namespace Helper

/-! ### Requests -/

variable (helper : Helper)

def quiet (exits : List Exit) : Outcome × Helper :=
  (⟨helper.store, helper.store, .none, none, exits, []⟩, helper)

def withStore (change : Change) (store : Store) : Outcome × Helper :=
  (⟨helper.store, store, change, none, [], []⟩, { helper with store := store })

def refuse (id : ℕ) (reason : String) : Outcome × Helper :=
  helper.quiet [⟨id, exitRefused, "", reason, none⟩]

/-- The values of the `inject` entries that are held; none if a source is unknown. An
entry whose value is absent is left unset. -/
def inject (store : Store) : List (String × String) → Option (List (String × String))
  | [] => some []
  | (name, source) :: rest => do
      let source ← parseSource source
      let following ← inject store rest
      pure (match source.read store with
        | some value => (name, value) :: following
        | none => following)

/-- Start a command with a thread that waits for it. -/
def launch (run : ActiveRun) : Option ℕ → Outcome × Helper
  | none => helper.quiet [⟨run.id, exitNotStarted, "", "could not start", none⟩]
  | some group =>
    (⟨helper.store, helper.store, .none, some run, [], []⟩,
      { helper with
        runs := helper.runs.insert run.id group
        listed := run :: helper.listed
        nextSerial := helper.nextSerial + 1 })

/-- Start a command nobody waits for; with no place left it is dropped. -/
def launchDetached (run : ActiveRun) (spawned : Option ℕ) :
    Outcome × Helper :=
  if maxDetached ≤ helper.detached then helper.quiet []
  else match spawned with
    | none => helper.quiet []
    | some _ =>
      (⟨helper.store, helper.store, .none, some run, [], []⟩,
        { helper with detached := helper.detached + 1, nextSerial := helper.nextSerial + 1 })

/-- The generation is read under the lock that resolves the injected values. -/
def exec (id : ℕ) (argv : List String) (env : List (String × Option String))
    (injects : List (String × String)) (capture stdin : Option String) (detach : Bool)
    (spawned : Option ℕ) : Outcome × Helper :=
  match Capture.parse capture with
  | none => helper.refuse id "unknown capture"
  | some capture =>
    if argv = [] ∨ env.any (fun entry => !validEnvName entry.1) ∨
        injects.any (fun entry => !validEnvName entry.1) then
      helper.refuse id "malformed command"
    else match inject helper.store injects with
    | none => helper.refuse id "unknown inject source"
    | some injected =>
      let run : ActiveRun := ⟨helper.nextSerial, id, capture, helper.store.generation,
        ⟨argv, env, injected, stdin⟩⟩
      if detach then helper.launchDetached run spawned
      else if maxRuns ≤ helper.runs.entries.length then helper.refuse id "too many runs"
      else if id ∈ helper.runs then helper.refuse id "run id in use"
      else helper.launch run spawned

def kill (id : ℕ) : Outcome × Helper :=
  match helper.runs.lookup id with
  | none => helper.quiet []
  | some group =>
    (⟨helper.store, helper.store, .none, none, [], signalGroup .term group⟩,
      { helper with stops := (id, group) :: helper.stops })

/-- The main loop ends: every run is told to. -/
def shutdown : Outcome × Helper :=
  let groups := helper.runs.entries.map (·.2)
  (⟨helper.store, helper.store, .none, none, [], groups.flatMap (signalGroup .term)⟩,
    { helper with phase := .stopping (!groups.isEmpty) })

def handle (request : Request) (spawned : Option ℕ) : Outcome × Helper :=
  match request with
  | .exec id argv env injects capture stdin detach =>
    helper.exec id argv env injects capture stdin detach spawned
  | .kill id => helper.kill id
  | .forget keep => helper.withStore (.forgot keep) (helper.store.forget keep)
  | .holdSession name => helper.withStore (.heldSession name) (helper.store.holdSession name).2
  | .forgetSecret name => helper.withStore (.forgotSecret name) (helper.store.forgetSecret name)
  | .forgetItem id => helper.withStore (.forgotItem id) (helper.store.forgetItem id)
  | .read => helper.quiet []
  | .shutdown => helper.shutdown

/-! ### Threads -/

/-- A run leaves the list before it is reaped. -/
def leave (serial : ℕ) : Outcome × Helper :=
  match helper.listed.find? (·.serial = serial) with
  | none => helper.quiet []
  | some run =>
    (⟨helper.store, helper.store, .none, none, [], []⟩,
      { helper with
        runs := helper.runs.erase run.id
        listed := helper.listed.erase run
        unlisted := run :: helper.unlisted })

/-- The end of `run`: output cut at the cap is a failure and nothing from it is kept. -/
def finish (libraries : Libraries) (helper : Helper) (serial : ℕ) (code : ℤ)
    (output : Option String) (err : String) : Outcome × Helper :=
  match helper.unlisted.find? (·.serial = serial) with
  | none => helper.quiet []
  | some run =>
    let code := if output.isNone ∧ code = 0 then 1 else code
    let told := keep libraries helper.store run.generation run.capture code (output.getD "")
    (⟨helper.store, told.2.2.2, .kept run, none,
        [⟨run.id, code, told.1, err, some (told.2.1, told.2.2.1)⟩], []⟩,
      { helper with store := told.2.2.2, unlisted := helper.unlisted.erase run })

/-- The second signal of a `kill`, if its run is still listed. -/
def stopDue (id group : ℕ) : Outcome × Helper :=
  if (id, group) ∈ helper.stops then
    let signals := if helper.runs.lookup id = some group then signalGroup .kill group else []
    (⟨helper.store, helper.store, .none, none, [], signals⟩,
      { helper with stops := helper.stops.erase (id, group) })
  else helper.quiet []

/-- The end of `main`: what still runs is killed and the store is emptied. -/
def close : Outcome × Helper :=
  match helper.phase with
  | .stopping any =>
    let groups := if any then helper.runs.entries.map (·.2) else []
    let store := helper.store.forget []
    (⟨helper.store, store, .forgot [], none, [], groups.flatMap (signalGroup .kill)⟩,
      { helper with store := store, phase := .stopped })
  | _ => helper.quiet []

/-- One section; once the main loop ended no request is read. -/
def perform (libraries : Libraries) (helper : Helper) (event : Event) : Outcome × Helper :=
  match event with
  | .request request spawned =>
    if helper.phase = .serving then helper.handle request spawned else helper.quiet []
  | .left serial => helper.leave serial
  | .finished serial code output err => helper.finish libraries serial code output err
  | .detachedEnded => ((helper.quiet []).1, { helper with detached := helper.detached - 1 })
  | .stopDue id group => helper.stopDue id group
  | .closed => helper.close

end Helper

end QsBitwarden.Vault
