import Mathlib.Data.Nat.Digits.Lemmas
import QsBitwarden.Panel.LoginOutput

/-! Owns the names under which the panel saves what the server named: attachments, and the
public keys of SSH items. It does not own the writing. -/

namespace QsBitwarden.Panel.FileNames

open Lib Lib.Utf16 List

/-! ### Attachments -/

def isSeparator (unit : ℕ) : Bool := unit = 0x5c || unit = 0x2f

def isControl (unit : ℕ) : Bool := unit ≤ 0x1f || unit = 0x7f

/-- What `.` of a pattern does not match. -/
def isLineEnd (unit : ℕ) : Bool := unit = 0x0a || unit = 0x0d || unit = 0x2028 || unit = 0x2029

/-- The text after what `/^.*[\\/]/` matches: it reaches to the last separator of the first line. -/
def afterFolders (name : Units) : Units :=
  name.drop ((name.takeWhile (!isLineEnd ·)).rdropWhile (!isSeparator ·)).length

def inert (unit : ℕ) : ℕ := if isControl unit || isSeparator unit then 0x5f else unit

def isLeading (unit : ℕ) : Bool := isSpaceUnit unit || unit = 0x2e || unit = 0x2d

def lastIndexOf (unit : ℕ) : Units → Option ℕ
  | [] => none
  | first :: rest =>
    ((lastIndexOf unit rest).map (· + 1)).or (if first = unit then some 0 else none)

/-- The extension that a cut keeps. -/
def extension (name : Units) : Units :=
  match lastIndexOf 0x2e name with
  | some dot => if 0 < dot && name.length - dot ≤ 12 then name.drop dot else []
  | none => []

def shorten (name : Units) : Units :=
  if 128 < name.length then name.take (128 - (extension name).length) ++ extension name
  else name

def safeAttachmentFileName (raw : Units) : Units :=
  let name := shorten
    ((((afterFolders raw).map inert).dropWhile isLeading).rdropWhile isSpaceUnit)
  if name = [] then units "attachment".toList else name

/-- The text ` (n)`. -/
def suffix (n : ℕ) : Units := 0x20 :: 0x28 :: ((Nat.toDigits 10 n).map Char.toNat ++ [0x29])

/-- The text has neither separators nor control characters. -/
def Plain (text : Units) : Prop :=
  ∀ unit ∈ text, isSeparator unit = false ∧ isControl unit = false

instance (text : Units) : Decidable (Plain text) :=
  inferInstanceAs (Decidable (∀ unit ∈ text, _))

/-- The name is that of a direct child, neither hidden nor an option. -/
structure Safe (name : Units) : Prop where
  filled : name ≠ []
  plain : Plain name
  leading : name.head?.any isLeading = false

theorem extension_suffix (name : Units) :
    extension name <:+ name ∧ (extension name).length ≤ 12 := by
  unfold extension
  split
  · split_ifs with short
    · simp only [Bool.and_eq_true, decide_eq_true_eq] at short
      exact ⟨drop_suffix _ _, by simpa using short.2⟩
    · exact ⟨nil_suffix, Nat.zero_le _⟩
  · exact ⟨nil_suffix, Nat.zero_le _⟩

theorem mem_of_mem_shorten {unit : ℕ} {name : Units} (there : unit ∈ shorten name) :
    unit ∈ name := by
  unfold shorten at there
  split at there
  · exact (mem_append.mp there).elim mem_of_mem_take fun last =>
      (extension_suffix name).1.subset last
  · exact there

/-- A cut keeps at least 116 units, the first among them. -/
theorem head?_shorten (name : Units) : (shorten name).head? = name.head? := by
  have short := (extension_suffix name).2
  unfold shorten
  split_ifs with long
  · cases name with
    | nil => cases long
    | cons first rest =>
      rw [show 128 - (extension (first :: rest)).length =
        127 - (extension (first :: rest)).length + 1 by omega]
      rfl
  · rfl

section Names

variable {raw : Units} {unit : ℕ}

/-- Every unit is one of the raw name, made inert, or of the name for none. -/
theorem mem_safeAttachmentFileName (there : unit ∈ safeAttachmentFileName raw) :
    (∃ original ∈ raw, inert original = unit) ∨ unit ∈ units "attachment".toList := by
  unfold safeAttachmentFileName at there
  dsimp only at there
  split_ifs at there
  · exact .inr there
  · have kept := rdropWhile_prefix _ _ |>.subset (mem_of_mem_shorten there)
    obtain ⟨original, mem, same⟩ := mem_map.mp ((dropWhile_suffix _).subset kept)
    exact .inl ⟨original, mem_of_mem_drop mem, same⟩

theorem inert_plain (unit : ℕ) : isSeparator (inert unit) = false ∧
    isControl (inert unit) = false := by
  unfold inert
  split_ifs with special
  · decide
  · simpa [and_comm] using special

theorem safe_safeAttachmentFileName (raw : Units) : Safe (safeAttachmentFileName raw) where
  filled := by
    unfold safeAttachmentFileName
    dsimp only
    split_ifs with empty
    · decide
    · exact empty
  plain unit there := by
    rcases mem_safeAttachmentFileName there with ⟨original, _, rfl⟩ | default
    · exact inert_plain original
    · have all : Plain (units "attachment".toList) := by decide
      exact all unit default
  leading := by
    unfold safeAttachmentFileName
    dsimp only
    split_ifs
    · decide
    · rw [head?_shorten]
      generalize ((afterFolders raw).map inert) = text
      have first := head?_dropWhile_not isLeading text
      cases same : ((text.dropWhile isLeading).rdropWhile isSpaceUnit) with
      | nil => rfl
      | cons front rest =>
        obtain ⟨others, whole⟩ := rdropWhile_prefix isSpaceUnit (text.dropWhile isLeading)
        rw [← whole, same] at first
        exact first

end Names

/-! ### The suffix -/

section Claimed

variable {name : Units} {n : ℕ}

end Claimed

/-! ### What fits -/

/-- What of a raw name goes into the file's: the last part of its path, without white space at its
ends or dots and dashes in front. -/
def keptPart (raw : Units) : Units :=
  ((afterFolders raw).dropWhile (isLeading ∘ inert)).rdropWhile (isSpaceUnit ∘ inert)

structure Identity where
  itemId : Units
  name : Units
  fingerprint : Units
  publicKey : Units
  deriving DecidableEq

def isKeyUnit (unit : ℕ) : Bool :=
  (0x41 ≤ unit && unit ≤ 0x5a) || (0x61 ≤ unit && unit ≤ 0x7a) || (0x2f ≤ unit && unit ≤ 0x39) ||
    unit = 0x2b || unit = 0x3d

/-- `/^(ssh-ed25519|ssh-rsa) [A-Za-z0-9+/=]+(\s|$)/`. -/
def isPublicKey (text : Units) : Bool :=
  ["ssh-ed25519 ", "ssh-rsa "].any fun word =>
    let rest := text.drop (units word.toList).length
    let body := rest.takeWhile isKeyUnit
    (units word.toList).isPrefixOf text && body ≠ [] &&
      (rest.drop body.length).head?.all isSpaceUnit

def sshExportIdentities (identities : List Identity) : List Identity :=
  identities.filterMap fun identity =>
    let publicKey := LoginOutput.trimUnits identity.publicKey
    if isPublicKey publicKey && !(units "PRIVATE".toList <:+: publicKey) && identity.itemId ≠ []
      then some { identity with publicKey := publicKey } else none

def exportBase (name : Units) : Units :=
  let base := safeAttachmentFileName name
  if base = units "attachment".toList then units "ssh-key".toList else base

def plainName (name : Units) : Units := exportBase name ++ units ".pub".toList

/-- The name of a key whose own is taken. -/
def fallbackName (name itemId : Units) : Units :=
  let suffix := (safeAttachmentFileName itemId).take 64
  exportBase name ++ (units ".".toList ++
    ((if suffix = [] then units "key".toList else suffix) ++ units ".pub".toList))

/-- The item that has each name. -/
abbrev Taken := Units → Option Units

def exportName (name itemId : Units) (taken : Taken) : Units :=
  if (taken (plainName name)).any (· ≠ itemId) then fallbackName name itemId else plainName name

def sshExportFileName (name itemId : Units) (taken : Taken) : Units × Taken :=
  (exportName name itemId taken,
    Function.update taken (exportName name itemId taken) (some itemId))

/-- The files with their names and their contents. -/
def exportEntries (taken : Taken) : List Identity → List (Units × Units)
  | [] => []
  | identity :: rest =>
    let (fileName, taken) := sshExportFileName identity.name identity.itemId taken
    (fileName, identity.publicKey) :: exportEntries taken rest

def sshExportPayload (identities : List Identity) : List (Units × Units) :=
  exportEntries (fun _ => none) (sshExportIdentities identities)

theorem Plain.append {front back : Units} (first : Plain front) (second : Plain back) :
    Plain (front ++ back) :=
  fun unit there => (mem_append.mp there).elim (first unit) (second unit)

theorem Safe.append {front back : Units} (safe : Safe front) (plain : Plain back) :
    Safe (front ++ back) := by
  refine ⟨by simp [safe.filled], safe.plain.append plain, ?_⟩
  cases front with
  | nil => exact absurd rfl safe.filled
  | cons first rest => exact safe.leading

theorem safe_exportBase (name : Units) : Safe (exportBase name) := by
  unfold exportBase
  dsimp only
  split_ifs
  · exact ⟨by decide, by decide, by decide⟩
  · exact safe_safeAttachmentFileName name

theorem sshExportFileName_taken (name itemId : Units) (taken : Taken) :
    (sshExportFileName name itemId taken).2 =
      Function.update taken (exportName name itemId taken) (some itemId) :=
  rfl

theorem exportName_cases (name itemId : Units) (taken : Taken) :
    exportName name itemId taken = plainName name ∨
      exportName name itemId taken = fallbackName name itemId := by
  unfold exportName
  split_ifs
  · exact .inr rfl
  · exact .inl rfl

theorem safe_exportName (name itemId : Units) (taken : Taken) :
    Safe (exportName name itemId taken) := by
  rcases exportName_cases name itemId taken with same | same <;> rw [same]
  · exact (safe_exportBase name).append (by decide)
  · refine (safe_exportBase name).append (Plain.append (by decide) (Plain.append ?_ (by decide)))
    split_ifs
    · decide
    · exact fun unit there =>
        (safe_safeAttachmentFileName itemId).plain unit (mem_of_mem_take there)

/-- A name that a file of these identities has, the last identity first: the plain name of one,
or its fallback name if the plain one is that of a file before it. -/
inductive Used : List Identity → Units → Prop
  | plain {identity : Identity} {before : List Identity} :
      Used (identity :: before) (plainName identity.name)
  | fallback {identity : Identity} {before : List Identity} :
      Used before (plainName identity.name) →
        Used (identity :: before) (fallbackName identity.name identity.itemId)
  | earlier {identity : Identity} {before : List Identity} {name : Units} :
      Used before name → Used (identity :: before) name

/-- Files before that of this identity have both its names. -/
def Collides (before : List Identity) (identity : Identity) : Prop :=
  Used before (plainName identity.name) ∧ Used before (fallbackName identity.name identity.itemId)

/-- The names of the files so far, and the items that have them. -/
structure Records (before : List Identity) (taken : Taken) : Prop where
  used : ∀ name, (taken name).isSome = true ↔ Used before name
  items : ∀ name itemId, taken name = some itemId → itemId ∈ before.map Identity.itemId

section Export

variable {taken : Taken} {identity : Identity} {before identities : List Identity}

/-- An item without a file takes its fallback name just if its plain name is used. -/
theorem Records.exportName (records : Records before taken)
    (new : identity.itemId ∉ before.map Identity.itemId) :
    Used before (plainName identity.name) ∧ FileNames.exportName identity.name identity.itemId
        taken = fallbackName identity.name identity.itemId ∨
      ¬ Used before (plainName identity.name) ∧
        FileNames.exportName identity.name identity.itemId taken = plainName identity.name := by
  unfold FileNames.exportName
  rw [← records.used]
  cases found : taken (plainName identity.name) with
  | none => exact .inr ⟨nofun, if_neg nofun⟩
  | some holder =>
    have other : holder ≠ identity.itemId := fun same => new (same ▸ records.items _ _ found)
    exact .inl ⟨rfl, if_pos (decide_eq_true other)⟩

theorem Records.next (records : Records before taken)
    (new : identity.itemId ∉ before.map Identity.itemId) :
    Records (identity :: before) (sshExportFileName identity.name identity.itemId taken).2 := by
  rw [sshExportFileName_taken]
  constructor
  · intro name
    by_cases same : name = FileNames.exportName identity.name identity.itemId taken
    · subst same
      rw [Function.update_self]
      refine iff_of_true rfl ?_
      rcases records.exportName new with ⟨used, is⟩ | ⟨_, is⟩ <;> rw [is]
      · exact .fallback used
      · exact .plain
    · rw [Function.update_of_ne same, records.used]
      refine ⟨.earlier, fun used => ?_⟩
      rcases records.exportName new with ⟨plain, is⟩ | ⟨free, is⟩ <;> rw [is] at same
      · cases used with
        | plain => exact plain
        | fallback => exact absurd rfl same
        | earlier used => exact used
      · cases used with
        | plain => exact absurd rfl same
        | fallback used => exact absurd used free
        | earlier used => exact used
  · intro name itemId found
    rw [Function.update_apply] at found
    split_ifs at found
    · cases found
      exact mem_cons_self
    · exact mem_cons_of_mem _ (records.items name itemId found)

/-- The name given is used before just if both names are. -/
theorem Records.used_exportName_iff (records : Records before taken)
    (new : identity.itemId ∉ before.map Identity.itemId) :
    Used before (FileNames.exportName identity.name identity.itemId taken) ↔
      Collides before identity := by
  unfold Collides
  rcases records.exportName new with ⟨used, is⟩ | ⟨free, is⟩ <;> rw [is]
  · exact (and_iff_right used).symm
  · exact iff_of_false free fun both => free both.1

/-- The names are new and no two are alike just if no identity finds both of its names used. -/
theorem exportEntries_nodup_iff (records : Records before taken)
    (new : ∀ identity ∈ identities, identity.itemId ∉ before.map Identity.itemId)
    (distinct : (identities.map Identity.itemId).Nodup) :
    ((∀ name ∈ (exportEntries taken identities).map Prod.fst, ¬ Used before name) ∧
        ((exportEntries taken identities).map Prod.fst).Nodup) ↔
      ∀ front identity rest, identities = front ++ identity :: rest →
        ¬ Collides (front.reverse ++ before) identity := by
  induction identities generalizing before taken with
  | nil => simp [exportEntries]
  | cons identity rest ih =>
    have own := new identity mem_cons_self
    obtain ⟨apart, distinct⟩ := nodup_cons.mp distinct
    have later := ih (records.next own) (fun next mem again => (mem_cons.mp again).elim
      (fun same => apart (same ▸ mem_map_of_mem mem)) (new next (mem_cons_of_mem _ mem))) distinct
    have fresh : ∀ name, ¬ Used (identity :: before) name ↔
        name ≠ FileNames.exportName identity.name identity.itemId taken ∧ ¬ Used before name := by
      intro name
      rw [← (records.next own).used, ← records.used, sshExportFileName_taken,
        Function.update_apply]
      split_ifs with same <;> simp [same]
    simp only [fresh] at later
    constructor
    · rintro ⟨free, once⟩ front other others split
      obtain ⟨first, once⟩ := nodup_cons.mp once
      cases front with
      | nil =>
        cases split
        exact (records.used_exportName_iff own).not.mp (free _ mem_cons_self)
      | cons _ front =>
        cases split
        rw [reverse_cons, append_assoc]
        exact later.mp ⟨fun name mem => ⟨ne_of_mem_of_not_mem mem first,
          free name (mem_cons_of_mem _ mem)⟩, once⟩ front other others rfl
    · intro none
      obtain ⟨free, once⟩ := later.mpr fun front other others split => by
        have after := none (identity :: front) other others (split ▸ rfl)
        rwa [reverse_cons, append_assoc] at after
      have first := (records.used_exportName_iff own).not.mpr (none [] identity rest rfl)
      exact ⟨forall_mem_cons.mpr ⟨first, fun name mem => (free name mem).2⟩,
        nodup_cons.mpr ⟨fun mem => (free _ mem).1 rfl, once⟩⟩

/-- Each file is safe and has the key of the identity that named it. -/
theorem exportEntries_own (taken : Taken) (identities : List Identity) :
    List.Forall₂ (fun identity entry => Safe entry.1 ∧ entry.2 = identity.publicKey ∧
      (entry.1 = plainName identity.name ∨ entry.1 = fallbackName identity.name identity.itemId))
      identities (exportEntries taken identities) := by
  induction identities generalizing taken with
  | nil => exact .nil
  | cons identity rest ih =>
    exact .cons ⟨safe_exportName _ _ _, rfl, exportName_cases _ _ _⟩ (ih _)

end Export

/-- Every key is exported under a safe name of its own identity, and in a file of its own just if
no identity finds both of its names used by those before it. -/
theorem exported_keys_apart (identities : List Identity) :
    List.Forall₂ (fun identity entry => Safe entry.1 ∧ entry.2 = identity.publicKey ∧
      (entry.1 = plainName identity.name ∨ entry.1 = fallbackName identity.name identity.itemId))
      (sshExportIdentities identities) (sshExportPayload identities) ∧
    ((identities.map Identity.itemId).Nodup →
      (((sshExportPayload identities).map Prod.fst).Nodup ↔
        ∀ front identity rest, sshExportIdentities identities = front ++ identity :: rest →
          ¬ Collides front.reverse identity)) := by
  refine ⟨exportEntries_own _ _, fun distinct => ?_⟩
  have empty : Records [] fun _ => none := ⟨fun _ => iff_of_false nofun nofun, nofun⟩
  have once : ((sshExportIdentities identities).map Identity.itemId).Nodup := by
    refine pairwise_map.mpr ((pairwise_filterMap ..).mpr ((pairwise_map.mp distinct).imp ?_))
    intro first second apart one fromFirst two fromSecond
    dsimp only at fromFirst fromSecond
    split_ifs at fromFirst fromSecond
    cases fromFirst
    cases fromSecond
    exact apart
  have exported := exportEntries_nodup_iff empty (fun _ _ => not_mem_nil) once
  simp only [append_nil] at exported
  rw [← exported]
  exact (and_iff_right fun _ _ => nofun).symm

def sshIdentity (itemId name key : String) : Identity :=
  ⟨units itemId.toList, units name.toList, [], units ("ssh-ed25519 " ++ key).toList⟩

theorem exported_keys_apart_sameName :
    ((sshExportPayload [sshIdentity "1f" "git" "AAAA", sshIdentity "2e" "git" "AAAB"]).map
      Prod.fst).Nodup ∧
    sshExportPayload [sshIdentity "1f" "git" "AAAA", sshIdentity "2e" "git" "AAAB"] =
      [(units "git.pub".toList, units "ssh-ed25519 AAAA".toList),
        (units "git.2e.pub".toList, units "ssh-ed25519 AAAB".toList)] := by
  refine ⟨((exported_keys_apart _).2 (by decide +kernel)).mpr ?_, by decide +kernel⟩
  have kept : sshExportIdentities [sshIdentity "1f" "git" "AAAA", sshIdentity "2e" "git" "AAAB"] =
      [sshIdentity "1f" "git" "AAAA", sshIdentity "2e" "git" "AAAB"] := by
    decide +kernel
  rw [kept]
  rintro (_ | ⟨_, _ | ⟨_, front⟩⟩) identity rest split ⟨plain, fallback⟩
  · cases plain
  · cases split
    generalize name : fallbackName _ _ = used at fallback
    cases fallback with
    | plain => exact absurd name (by decide +kernel)
    | fallback none => cases none
    | earlier none => cases none
  · simp at split

/-- An item's name is that of another with the id of a third: it shares the third's file. -/
theorem exported_keys_collide :
    let first := "6ba7b810-9dad-11d1-80b4-00c04fd430c8"
    let second := "7d444840-9dc0-11d1-b245-5ffdce74fad2"
    let third := "f47ac10b-58cc-4372-a567-0e02b2c3d479"
    let identities := [sshIdentity first "git" "AAAA",
      sshIdentity second ("git." ++ third) "AAAB", sshIdentity third "git" "AAAC"]
    (identities.map Identity.itemId).Nodup ∧
      sshExportPayload identities =
        [(units "git.pub".toList, units "ssh-ed25519 AAAA".toList),
          (units ("git." ++ third ++ ".pub").toList, units "ssh-ed25519 AAAB".toList),
          (units ("git." ++ third ++ ".pub").toList, units "ssh-ed25519 AAAC".toList)] := by
  decide +kernel

end QsBitwarden.Panel.FileNames
