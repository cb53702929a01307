import QsBitwarden.Agent.Protocol
import Mathlib.Data.Option.Basic

/-! Owns the exactness of sign-data classification: the two recognised shapes of signed
data as their authors write them, the server a login goes to, and that the classifier
returns each kind precisely on its shape. It does not own which grants a kind may use. -/

namespace QsBitwarden.Agent

open Lib List Option

/-! ### The two shapes -/

/-- PROTOCOL.sshsig: the data `ssh-keygen -Y sign` has signed. -/
structure SshSigData where
  namespaceName : Bytes
  reserved : Bytes
  hash : Bytes
  digest : Bytes
  deriving DecidableEq, Repr

def SshSigData.encode (data : SshSigData) : Bytes :=
  ascii "SSHSIG" ++ (putString data.namespaceName ++ (putString data.reserved ++
    (putString data.hash ++ putString data.digest)))

/-- RFC 4252, section 7: the data a public-key login has signed. With a host key it is
OpenSSH's host-bound form. -/
structure Login where
  sessionId : Bytes
  user : Bytes
  service : Bytes
  algorithm : Bytes
  key : Bytes
  hostKey : Option Bytes
  deriving DecidableEq, Repr

namespace Login

def method (login : Login) : Bytes :=
  match login.hostKey with
  | none => ascii "publickey"
  | some _ => ascii "publickey-hostbound-v00@openssh.com"

def hostFields (login : Login) : Bytes :=
  match login.hostKey with
  | none => []
  | some hostKey => putString hostKey

def encode (login : Login) : Bytes :=
  putString login.sessionId ++ (userauthRequestByte :: (putString login.user ++
    (putString login.service ++ (putString login.method ++ (1 :: (putString login.algorithm ++
      (putString login.key ++ login.hostFields)))))))

/-- A host key the companion takes: present and bounded. -/
def HostKeyInLimits (login : Login) : Prop :=
  ∀ hostKey, login.hostKey = some hostKey → hostKey ≠ [] ∧ hostKey.length ≤ maxHostKey

end Login

/-! ### Text fit for display -/

/-- A name and the text it is shown as: bounded UTF-8 with every character visible. -/
structure Displayed (bytes : Bytes) (text : String) : Prop where
  spelled : text.toUTF8 = ⟨bytes.toArray⟩
  nonempty : bytes ≠ []
  bounded : bytes.length ≤ maxSignDetail
  visible : ∀ c ∈ text.toList, isInvisible c = false

theorem displayDetail_eq_some_iff {bytes : Bytes} {text : String} :
    displayDetail bytes = some text ↔ Displayed bytes text := by
  unfold displayDetail
  constructor
  · intro shown
    split_ifs at shown with refused
    cases read : String.fromUTF8? ⟨bytes.toArray⟩ with
    | none =>
      rw [read] at shown
      cases shown
    | some found =>
      rw [read] at shown
      dsimp only at shown
      split_ifs at shown with invisible
      cases shown
      rw [not_or, Nat.not_lt] at refused
      refine ⟨fromUTF8_eq_some_iff.mp read, refused.1, refused.2, fun c mem => ?_⟩
      by_contra hidden
      exact invisible (any_eq_true.mpr ⟨c, mem, by simpa using hidden⟩)
  · intro displayed
    have fits : ¬(bytes = [] ∨ bytes.length > maxSignDetail) := by
      rw [not_or, Nat.not_lt]
      exact ⟨displayed.nonempty, displayed.bounded⟩
    rw [if_neg fits, fromUTF8_eq_some_iff.mpr displayed.spelled]
    dsimp only
    rw [if_neg]
    intro invisible
    obtain ⟨c, mem, hidden⟩ := any_eq_true.mp invisible
    rw [displayed.visible c mem] at hidden
    cases hidden

/-! ### The server of a login -/

/-- The host key of the last bind for a session. -/
def LatestBind (binds : List SessionBinding) (sessionId : Bytes) (host : String) : Prop :=
  ∃ before bind after, binds = before ++ bind :: after ∧ bind.sessionId = sessionId ∧
    bind.hostKey = host ∧ ∀ later ∈ after, later.sessionId ≠ sessionId

/-- No bind names the session. -/
def Unbound (binds : List SessionBinding) (sessionId : Bytes) : Prop :=
  ∀ bind ∈ binds, bind.sessionId ≠ sessionId

/-- The server a login goes to: the latest bind's, with which signed data must agree, else
the signed one, else none is known. -/
inductive LoginHost (binds : List SessionBinding) (sessionId : Bytes) :
    Option String → String → Prop
  | bound {signed : Option String} {host : String} (latest : LatestBind binds sessionId host)
      (agrees : ∀ named, signed = some named → named = host) :
      LoginHost binds sessionId signed host
  | signed {host : String} (unbound : Unbound binds sessionId) :
      LoginHost binds sessionId (some host) host
  | unknown (unbound : Unbound binds sessionId) : LoginHost binds sessionId none ""

def boundHost (binds : List SessionBinding) (sessionId : Bytes) : Option String :=
  (binds.reverse.find? fun bind => bind.sessionId = sessionId).map (·.hostKey)

variable {binds : List SessionBinding} {sessionId : Bytes} {host : String}

theorem boundHost_eq_some_iff
    : boundHost binds sessionId = some host ↔ LatestBind binds sessionId host := by
  unfold boundHost LatestBind
  rw [map_eq_some_iff]
  constructor
  · rintro ⟨bind, found, named⟩
    obtain ⟨same, skipped, before, split, others⟩ := find?_eq_some_iff_append.mp found
    refine ⟨before.reverse, bind, skipped.reverse, ?_, by simpa using same, named, ?_⟩
    · rw [← reverse_reverse binds, split]
      simp
    · intro later mem
      simpa using others later (mem_reverse.mp mem)
  · rintro ⟨before, bind, after, rfl, same, named, others⟩
    refine ⟨bind, find?_eq_some_iff_append.mpr ⟨by simpa using same, ?_⟩, named⟩
    refine ⟨after.reverse, before.reverse, by simp, fun later mem => ?_⟩
    simpa using others later (mem_reverse.mp mem)

theorem boundHost_eq_none_iff :
    boundHost binds sessionId = none ↔ Unbound binds sessionId := by
  unfold boundHost Unbound
  rw [map_eq_none_iff, find?_eq_none]
  simp

theorem agreedHost_eq_some_iff {signed : Option String} :
    agreedHost (boundHost binds sessionId) signed = some host ↔
      LoginHost binds sessionId signed host := by
  constructor
  · intro agreed
    cases bound : boundHost binds sessionId with
    | none =>
      have unbound := boundHost_eq_none_iff.mp bound
      rw [bound] at agreed
      cases signed with
      | none =>
        obtain rfl : "" = host := Option.some.inj agreed
        exact .unknown unbound
      | some named =>
        obtain rfl : named = host := Option.some.inj agreed
        exact .signed unbound
    | some latest =>
      have latestBind := boundHost_eq_some_iff.mp bound
      rw [bound] at agreed
      cases signed with
      | none =>
        obtain rfl : latest = host := Option.some.inj agreed
        exact .bound latestBind nofun
      | some named =>
        change (if latest ≠ named then none else some latest) = some host at agreed
        split_ifs at agreed with differ
        obtain rfl : latest = host := Option.some.inj agreed
        refine .bound latestBind (fun other same => ?_)
        rw [← Option.some.inj same]
        exact (not_not.mp differ).symm
  · intro goes
    cases goes with
    | bound latest agrees =>
      rw [boundHost_eq_some_iff.mpr latest]
      cases signed with
      | none => rfl
      | some named =>
        rw [agrees named rfl]
        exact if_neg (not_not.mpr rfl)
    | signed unbound =>
      rw [boundHost_eq_none_iff.mpr unbound]
      rfl
    | unknown unbound =>
      rw [boundHost_eq_none_iff.mpr unbound]
      rfl

/-! ### SSHSIG data -/

/-- Signed data of the SSHSIG shape, for a namespace shown as `namespaceName`. -/
def IsSshSig (message : Bytes) (namespaceName : String) : Prop :=
  ∃ data : SshSigData, message = data.encode ∧
    (data.hash = ascii "sha256" ∨ data.hash = ascii "sha512") ∧
    Displayed data.namespaceName namespaceName

variable {message : Bytes} {namespaceName : String}

theorem isSshSig_of_sshsigNamespace
    (named : sshsigNamespace message = some namespaceName) : IsSshSig message namespaceName := by
  unfold sshsigNamespace at named
  obtain ⟨⟨fields, rfl⟩, named⟩ := guard_bind_iff.mp named
  rw [drop_left] at named
  simp only [readString_bind_iff, guard_bind_iff] at named
  obtain ⟨name, _, -, rfl, reserved, _, -, rfl, hash, _, -, rfl, digest, _, -, rfl,
    ⟨rfl, known⟩, displayed⟩ := named
  refine ⟨⟨name, reserved, hash, digest⟩, ?_, known, displayDetail_eq_some_iff.mp displayed⟩
  rw [SshSigData.encode, append_nil]

theorem sshsigNamespace_of_isSshSig
    (bounded : message.length ≤ maxFrameLen) (shaped : IsSshSig message namespaceName) :
    sshsigNamespace message = some namespaceName := by
  obtain ⟨data, rfl, known, displayed⟩ := shaped
  unfold SshSigData.encode maxFrameLen at bounded
  simp only [length_append, putString_length] at bounded
  unfold sshsigNamespace SshSigData.encode
  refine guard_bind_iff.mpr ⟨prefix_append _ _, ?_⟩
  rw [drop_left]
  refine readString_bind_iff.mpr ⟨data.namespaceName, _, by omega, rfl, ?_⟩
  refine readString_bind_iff.mpr ⟨data.reserved, _, by omega, rfl, ?_⟩
  refine readString_bind_iff.mpr ⟨data.hash, _, by omega, rfl, ?_⟩
  refine readString_bind_iff.mpr ⟨data.digest, [], by omega, (append_nil _).symm, ?_⟩
  exact guard_bind_iff.mpr ⟨⟨rfl, known⟩, displayDetail_eq_some_iff.mpr displayed⟩

/-! ### Logins -/

section Fingerprint

variable (hostKeyFingerprint : Bytes → String)

/-- Signed data of a login with the signing key, by a user shown as `user`, to the server
`host`. -/
def IsLogin (publicBlob message : Bytes) (binds : List SessionBinding) (user host : String) :
    Prop :=
  ∃ login : Login, message = login.encode ∧ login.key = publicBlob ∧ login.HostKeyInLimits ∧
    Displayed login.user user ∧
    LoginHost binds login.sessionId (login.hostKey.map hostKeyFingerprint) host

theorem hostboundMethod_method (login : Login) :
    hostboundMethod login.method = some login.hostKey.isSome := by
  unfold Login.method
  cases login.hostKey with
  | none => rfl
  | some _ => rfl

theorem signedHost_hostFields {login : Login} (limits : login.HostKeyInLimits) :
    signedHost hostKeyFingerprint login.hostKey.isSome login.hostFields =
      some (login.hostKey.map hostKeyFingerprint, []) := by
  unfold signedHost Login.hostFields
  cases present : login.hostKey with
  | none => rfl
  | some hostKey =>
    have checked := limits hostKey present
    have small : hostKey.length < 4294967296 := by
      have bound := checked.2
      unfold maxHostKey at bound
      omega
    refine readString_bind_iff.mpr ⟨hostKey, [], small, (append_nil _).symm, ?_⟩
    exact guard_bind_iff.mpr ⟨checked, rfl⟩

/-- What a login's method and the fields behind its key say about the host key. -/
theorem exists_hostKey_of_signedHost {method fields rest : Bytes} {hostbound : Bool}
    {signed : Option String} (recognised : hostboundMethod method = some hostbound)
    (read : signedHost hostKeyFingerprint hostbound fields = some (signed, rest)) :
    ∃ hostKey : Option Bytes, ∀ login : Login, login.hostKey = hostKey →
      method = login.method ∧ fields = login.hostFields ++ rest ∧ login.HostKeyInLimits ∧
      signed = hostKey.map hostKeyFingerprint := by
  unfold hostboundMethod at recognised
  unfold Login.method Login.hostFields Login.HostKeyInLimits
  split_ifs at recognised with plain bound
  · obtain rfl : false = hostbound := Option.some.inj recognised
    obtain ⟨rfl, rfl⟩ : none = signed ∧ fields = rest := by simpa [signedHost] using read
    refine ⟨none, fun login absent => ?_⟩
    rw [absent]
    exact ⟨plain, rfl, nofun, rfl⟩
  · obtain rfl : true = hostbound := Option.some.inj recognised
    obtain ⟨hostKey, others, -, rfl, opened⟩ := readString_bind_iff.mp read
    obtain ⟨checked, returned⟩ := guard_bind_iff.mp opened
    cases returned
    refine ⟨some hostKey, fun login present => ?_⟩
    rw [present]
    refine ⟨bound, rfl, fun other same => ?_, rfl⟩
    rw [← Option.some.inj same]
    exact checked

variable {publicBlob : Bytes} {binds : List SessionBinding}

theorem isLogin_of_userauth
    {kind : SignKind} (found : userauth hostKeyFingerprint publicBlob message binds = some kind) :
    ∃ user host, kind = .userAuth user host ∧
      IsLogin hostKeyFingerprint publicBlob message binds user host := by
  unfold userauth at found
  simp only [readString_bind_iff, readU8_bind_iff, guard_bind_iff] at found
  obtain ⟨sessionId, _, -, rfl, _, _, rfl, rfl, user, _, -, rfl, service, _, -, rfl,
    method, _, -, rfl, found⟩ := found
  obtain ⟨hostbound, recognised, found⟩ := bind_eq_some_iff.mp found
  simp only [readString_bind_iff, readU8_bind_iff, guard_bind_iff] at found
  obtain ⟨_, _, rfl, rfl, algorithm, _, -, rfl, key, _, -, rfl, found⟩ := found
  obtain ⟨⟨signed, rest⟩, readHost, found⟩ := bind_eq_some_iff.mp found
  obtain ⟨⟨rfl, rfl⟩, agrees⟩ := guard_bind_iff.mp found
  obtain ⟨host, agreed, found⟩ := bind_eq_some_iff.mp agrees
  obtain ⟨shown, displayed, returned⟩ := bind_eq_some_iff.mp found
  obtain ⟨hostKey, hostFields⟩ := exists_hostKey_of_signedHost _ recognised readHost
  let login : Login := ⟨sessionId, user, service, algorithm, key, hostKey⟩
  obtain ⟨sameMethod, sameFields, limits, sameSigned⟩ := hostFields login rfl
  refine ⟨shown, host, (Option.some.inj returned).symm, login, ?_, rfl, limits,
    displayDetail_eq_some_iff.mp displayed, ?_⟩
  · rw [sameFields, append_nil, sameMethod]
    rfl
  · rw [← sameSigned]
    exact agreedHost_eq_some_iff.mp agreed

variable {user : String}

theorem userauth_of_isLogin (bounded : message.length ≤ maxFrameLen)
    (shaped : IsLogin hostKeyFingerprint publicBlob message binds user host) :
    userauth hostKeyFingerprint publicBlob message binds = some (.userAuth user host) := by
  obtain ⟨login, rfl, sameKey, limits, displayed, goes⟩ := shaped
  unfold Login.encode maxFrameLen at bounded
  simp only [length_append, length_cons, putString_length] at bounded
  unfold userauth Login.encode
  refine readString_bind_iff.mpr ⟨login.sessionId, _, by omega, rfl, ?_⟩
  refine readU8_bind_iff.mpr ⟨_, _, rfl, ?_⟩
  refine guard_bind_iff.mpr ⟨rfl, ?_⟩
  refine readString_bind_iff.mpr ⟨login.user, _, by omega, rfl, ?_⟩
  refine readString_bind_iff.mpr ⟨login.service, _, by omega, rfl, ?_⟩
  refine readString_bind_iff.mpr ⟨login.method, _, by omega, rfl, ?_⟩
  refine bind_eq_some_iff.mpr ⟨_, hostboundMethod_method login, ?_⟩
  refine readU8_bind_iff.mpr ⟨_, _, rfl, ?_⟩
  refine guard_bind_iff.mpr ⟨rfl, ?_⟩
  refine readString_bind_iff.mpr ⟨login.algorithm, _, by omega, rfl, ?_⟩
  refine readString_bind_iff.mpr ⟨login.key, _, by omega, rfl, ?_⟩
  refine bind_eq_some_iff.mpr ⟨_, signedHost_hostFields _ limits, ?_⟩
  refine guard_bind_iff.mpr ⟨⟨rfl, sameKey⟩, ?_⟩
  refine bind_eq_some_iff.mpr ⟨host, agreedHost_eq_some_iff.mpr goes, ?_⟩
  exact bind_eq_some_iff.mpr ⟨user, displayDetail_eq_some_iff.mpr displayed, rfl⟩

/-! ### Disjoint shapes -/

/-- The preamble's first four bytes, read as the length of a session id, exceed the frame
limit. -/
theorem not_both_shapes (bounded : message.length ≤ maxFrameLen) :
    ¬((∃ data : SshSigData, message = data.encode) ∧ ∃ login : Login, message = login.encode) := by
  rintro ⟨⟨data, sshsig⟩, login, logged⟩
  have small : login.sessionId.length ≤ maxFrameLen := by
    rw [logged, Login.encode, length_append, putString_length] at bounded
    omega
  have lengthRead : readU32 message = some (login.sessionId.length,
      login.sessionId ++ message.drop (login.sessionId.length + 4)) := by
    apply readU32_eq_some_iff.mpr
    unfold maxFrameLen at small
    refine ⟨by omega, ?_⟩
    have dropped : message.drop (login.sessionId.length + 4) =
        login.encode.drop (putString login.sessionId).length := by
      rw [logged, putString_length]
    rw [dropped, Login.encode, drop_left, logged, Login.encode, putString, append_assoc]
  have preambleRead : readU32 message = some (1397966931,
      [73, 71] ++ (putString data.namespaceName ++ (putString data.reserved ++
        (putString data.hash ++ putString data.digest)))) := by
    rw [sshsig]
    rfl
  rw [lengthRead, Option.some.injEq, Prod.mk.injEq] at preambleRead
  unfold maxFrameLen at small
  omega

theorem IsSshSig.not_isLogin {namespaceName host : String} (bounded : message.length ≤ maxFrameLen)
    (sshsig : IsSshSig message namespaceName) :
    ¬IsLogin hostKeyFingerprint publicBlob message binds user host := by
  rintro ⟨login, logged, -⟩
  obtain ⟨data, shaped, -⟩ := sshsig
  exact not_both_shapes bounded ⟨⟨data, shaped⟩, login, logged⟩

theorem Login.hostKey_inj {first second : Login} (firstSmall : first.hostFields.length < 4294967296)
    (secondSmall : second.hostFields.length < 4294967296)
    (sameMethod : first.method = second.method)
    (sameFields : first.hostFields = second.hostFields) : first.hostKey = second.hostKey := by
  have bound := hostboundMethod_method first
  rw [sameMethod, hostboundMethod_method, Option.some.injEq] at bound
  unfold Login.hostFields at firstSmall secondSmall sameFields
  cases firstKey : first.hostKey with
  | none =>
    rw [firstKey] at bound
    exact (not_isSome_iff_eq_none.mp (by simp [bound])).symm
  | some one =>
    rw [firstKey] at bound
    obtain ⟨other, secondKey⟩ := isSome_iff_exists.mp bound
    simp only [firstKey, secondKey, putString_length] at firstSmall secondSmall sameFields
    rw [← append_nil (putString one), ← append_nil (putString other)] at sameFields
    rw [secondKey, (putString_append_inj (by omega) (by omega) sameFields).1]

/-- Signed data is that of one login only. -/
theorem Login.encode_inj {first second : Login} (bounded : first.encode.length ≤ maxFrameLen)
    (same : first.encode = second.encode) : first = second := by
  have bounded' := same ▸ bounded
  unfold Login.encode maxFrameLen at bounded bounded'
  simp only [length_append, length_cons, putString_length] at bounded bounded'
  obtain ⟨sameSession, rest⟩ := putString_append_inj (by omega) (by omega) same
  obtain ⟨sameUser, rest⟩ := putString_append_inj (by omega) (by omega) (List.cons.inj rest).2
  obtain ⟨sameService, rest⟩ := putString_append_inj (by omega) (by omega) rest
  obtain ⟨sameMethod, rest⟩ := putString_append_inj (by omega) (by omega) rest
  obtain ⟨sameAlgorithm, rest⟩ := putString_append_inj (by omega) (by omega)
    (List.cons.inj rest).2
  obtain ⟨sameKey, sameHostFields⟩ := putString_append_inj (by omega) (by omega) rest
  have sameHostKey := Login.hostKey_inj (by omega) (by omega) sameMethod sameHostFields
  cases first
  cases second
  simp_all

/-! ### Exactness -/

theorem classifySign_eq_sshSig_iff
    (bounded : message.length ≤ maxFrameLen) :
    classifySign hostKeyFingerprint publicBlob message binds = .sshSig namespaceName ↔
      IsSshSig message namespaceName := by
  have named : sshsigNamespace message = some namespaceName ↔ IsSshSig message namespaceName :=
    ⟨isSshSig_of_sshsigNamespace, sshsigNamespace_of_isSshSig bounded⟩
  rw [← named, classifySign]
  cases sshsigNamespace message with
  | some found => simp
  | none =>
    cases login : userauth hostKeyFingerprint publicBlob message binds with
    | none => simp
    | some kind =>
      obtain ⟨user, host, rfl, -⟩ := isLogin_of_userauth _ login
      simp

theorem classifySign_eq_userAuth_iff (bounded : message.length ≤ maxFrameLen) :
    classifySign hostKeyFingerprint publicBlob message binds = .userAuth user host ↔
      IsLogin hostKeyFingerprint publicBlob message binds user host := by
  unfold classifySign
  cases named : sshsigNamespace message with
  | some found =>
    simpa using (isSshSig_of_sshsigNamespace named).not_isLogin hostKeyFingerprint bounded
  | none =>
    constructor
    · intro classified
      cases login : userauth hostKeyFingerprint publicBlob message binds with
      | none => simp [login] at classified
      | some kind =>
        obtain ⟨_, _, rfl, shaped⟩ := isLogin_of_userauth _ login
        obtain ⟨rfl, rfl⟩ : _ = user ∧ _ = host := by simpa [login] using classified
        exact shaped
    · intro shaped
      rw [userauth_of_isLogin _ bounded shaped]
      rfl

/-- A login whose host key is missing or too long is no recognised kind. -/
theorem classifySign_eq_other {login : Login} {hostKey : Bytes}
    (bounded : login.encode.length ≤ maxFrameLen) (present : login.hostKey = some hostKey)
    (refused : ¬(hostKey ≠ [] ∧ hostKey.length ≤ maxHostKey)) :
    classifySign hostKeyFingerprint publicBlob login.encode binds = .other := by
  cases classified : classifySign hostKeyFingerprint publicBlob login.encode binds with
  | sshSig namespaceName =>
    obtain ⟨data, shaped, -⟩ := (classifySign_eq_sshSig_iff _ bounded).mp classified
    exact absurd ⟨⟨data, shaped⟩, login, rfl⟩ (not_both_shapes bounded)
  | userAuth user host =>
    obtain ⟨other, same, -, limits, -⟩ := (classifySign_eq_userAuth_iff _ bounded).mp classified
    obtain rfl := Login.encode_inj bounded same
    exact absurd (limits hostKey present) refused
  | other => rfl

/-- Each kind is returned precisely on its shape, and no message has both shapes. -/
theorem classifySign_exact (publicBlob message : Bytes) (binds : List SessionBinding)
    (bounded : message.length ≤ maxFrameLen) :
    (∀ namespaceName,
      classifySign hostKeyFingerprint publicBlob message binds = .sshSig namespaceName ↔
        IsSshSig message namespaceName) ∧
    (∀ user host,
      classifySign hostKeyFingerprint publicBlob message binds = .userAuth user host ↔
        IsLogin hostKeyFingerprint publicBlob message binds user host) ∧
    (classifySign hostKeyFingerprint publicBlob message binds = .other ↔
      (¬∃ namespaceName, IsSshSig message namespaceName) ∧
        ¬∃ user host, IsLogin hostKeyFingerprint publicBlob message binds user host) ∧
    ¬((∃ data : SshSigData, message = data.encode) ∧
      ∃ login : Login, message = login.encode) := by
  refine ⟨fun _ => classifySign_eq_sshSig_iff _ bounded,
    fun _ _ => classifySign_eq_userAuth_iff _ bounded, ⟨fun other => ⟨?_, ?_⟩, ?_⟩,
    not_both_shapes bounded⟩
  · rintro ⟨namespaceName, shaped⟩
    rw [(classifySign_eq_sshSig_iff _ bounded).mpr shaped] at other
    cases other
  · rintro ⟨user, host, shaped⟩
    rw [(classifySign_eq_userAuth_iff _ bounded).mpr shaped] at other
    cases other
  · rintro ⟨noSshSig, noLogin⟩
    cases classified : classifySign hostKeyFingerprint publicBlob message binds with
    | sshSig namespaceName =>
      exact absurd ⟨_, (classifySign_eq_sshSig_iff _ bounded).mp classified⟩ noSshSig
    | userAuth user host =>
      exact absurd ⟨_, _, (classifySign_eq_userAuth_iff _ bounded).mp classified⟩ noLogin
    | other => rfl

end Fingerprint

theorem displayed_git : Displayed (ascii "git") "git" := by
  refine ⟨by decide, by decide, by decide, fun c mem => ?_⟩
  have visible : ("git".toList.all fun c => !isInvisible c) = true := by decide
  simpa using all_eq_true.mp visible c mem

/-- A login to a bound session is recognised, with the host of its latest bind. -/
theorem classifySign_exact_bound_login :
    classifySign (fun _ => "SHA256:new") [7]
      (Login.encode ⟨[1], ascii "git", ascii "ssh-connection", ascii "ssh-ed25519", [7], none⟩)
      [⟨[1], "SHA256:old"⟩, ⟨[1], "SHA256:new"⟩] = .userAuth "git" "SHA256:new" := by
  apply ((classifySign_exact _ _ _ _ (by decide)).2.1 _ _).mpr
  refine ⟨_, rfl, rfl, fun _ present => (by cases present), displayed_git,
    .bound ?_ fun _ absent => (by cases absent)⟩
  exact ⟨[⟨[1], "SHA256:old"⟩], ⟨[1], "SHA256:new"⟩, [], rfl, rfl, rfl, by simp⟩

/-- A complete host-bound login with the signing key whose host key is empty is not
recognised as one. -/
theorem classifySign_refuses_empty_host_key :
    let login : Login :=
      ⟨[1], ascii "git", ascii "ssh-connection", ascii "ssh-ed25519", [7], some []⟩
    login.encode.length ≤ maxFrameLen ∧ Displayed login.user "git" ∧
      ∀ hostKeyFingerprint : Bytes → String,
        classifySign hostKeyFingerprint [7] login.encode [] = .other := by
  intro login
  have bounded : login.encode.length ≤ maxFrameLen := by decide
  refine ⟨bounded, displayed_git, fun hostKeyFingerprint => ?_⟩
  exact classifySign_eq_other hostKeyFingerprint bounded rfl fun limits => limits.1 rfl

end QsBitwarden.Agent
