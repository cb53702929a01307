import QsBitwarden.Agent.Load
import QsBitwarden.Lib.Brackets
import QsBitwarden.Lib.JsonText
import QsBitwarden.Lib.Lines

/-! Owns how the companion finds a load's payload in the FIFO (`PayloadAccumulator` in
`runtime.rs`, `PayloadFilter` in `load.rs`): the lines, their size cap, the selection by the
load's nonce, and that the payload is found whatever is left before it. The JSON reader is a
parameter. It does not own the decoding of the payload. -/

namespace QsBitwarden.Agent

open Lib List Option

/-! ### The filter -/

def byteCodesOf (bytes : Bytes) : List ℕ := bytes.map UInt8.toNat

/-- What `serde_json` reads as `Named`: the load id of an object or array, which is one
bracket with nothing but white space around it. -/
structure NamedReader where
  loadId : Bytes → Option String
  bracketed : ∀ {bytes : Bytes} {id : String}, loadId bytes = some id →
    Brackets.Bracketed (byteCodesOf bytes)

/-- A load's nonce, thirty-two hexadecimal digits. -/
structure PayloadFilter where
  nonce : Bytes
  hexadecimal : ∀ byte ∈ nonce, isHexDigit byte = true

namespace PayloadFilter

def namesThisLoad (reader : NamedReader) (filter : PayloadFilter) (bytes : Bytes) : Bool :=
  match reader.loadId bytes with
  | some id => parseNonce id = some filter.nonce
  | none => false

/-- How this load's payload starts: `loadId` first, as the panel writes it. -/
def marker (filter : PayloadFilter) : Bytes := ascii "\x7b\"loadId\":\"" ++ (filter.nonce ++ [34])

/-- Where a pattern first stands in a line. -/
def position (pattern : Bytes) : Bytes → Option ℕ
  | [] => none
  | byte :: rest =>
    if pattern.isPrefixOf (byte :: rest) then some 0 else (position pattern rest).map (· + 1)

def locate (reader : NamedReader) (filter : PayloadFilter) (line : Bytes) : Option ℕ :=
  if filter.namesThisLoad reader line then some 0 else
  match position filter.marker line with
  | none => none
  | some start =>
    if 0 < start ∧ filter.namesThisLoad reader (line.drop start) then some start else none

end PayloadFilter

/-! ### Selection -/

namespace PayloadFilter

variable {reader : NamedReader} {filter : PayloadFilter}

/-- A text names the load: it reads as this load's, or holds the start of its payload. -/
def Names (reader : NamedReader) (filter : PayloadFilter) (text : Bytes) : Prop :=
  filter.namesThisLoad reader text = true ∨ filter.marker <:+: text

instance (reader : NamedReader) (filter : PayloadFilter) (text : Bytes) :
    Decidable (Names reader filter text) := inferInstanceAs (Decidable (_ ∨ _))

/-- This load's payload on a line of its own. -/
structure IsPayload (reader : NamedReader) (filter : PayloadFilter) (payload : Bytes) : Prop where
  starts : filter.marker <+: payload
  named : filter.namesThisLoad reader payload = true
  unbroken : newline ∉ payload
  fits : payload.length ≤ maxFilteredBytes

theorem bracketed_of_names {bytes : Bytes} (named : filter.namesThisLoad reader bytes = true) :
    Brackets.Bracketed (byteCodesOf bytes) := by
  unfold namesThisLoad at named
  cases read : reader.loadId bytes with
  | none =>
    rw [read] at named
    cases named
  | some id => exact reader.bracketed read

/-- The brace that starts the marker stands nowhere else in it. -/
theorem brace_not_mem_tail (filter : PayloadFilter) : (123 : UInt8) ∉ filter.marker.tail := by
  intro mem
  have tail : filter.marker.tail = (ascii "\x7b\"loadId\":\"").tail ++ (filter.nonce ++ [34]) := rfl
  rw [tail] at mem
  rcases mem_append.mp mem with fixed | later
  · revert fixed
    decide
  · rcases mem_append.mp later with digit | quote
    · have hexadecimal := filter.hexadecimal 123 digit
      revert hexadecimal
      decide
    · revert quote
      decide

theorem exists_marker (filter : PayloadFilter) :
    ∃ rest, filter.marker = 123 :: 34 :: 108 :: rest := ⟨_, rfl⟩

/-- The payload behind a fragment is where its marker first stands: an earlier place lies in
the fragment or crosses into the payload, whose brace would be inside the marker. -/
theorem position_fragment {fragment payload : Bytes} (silent : ¬filter.marker <:+: fragment)
    (starts : filter.marker <+: payload) :
    position filter.marker (fragment ++ payload) = some fragment.length := by
  obtain ⟨markerRest, marked⟩ := filter.exists_marker
  induction fragment with
  | nil =>
    obtain ⟨rest, rfl⟩ := starts
    rw [nil_append]
    cases line : filter.marker ++ rest with
    | nil =>
      rw [marked] at line
      cases line
    | cons byte others =>
      rw [position, if_pos, length_nil]
      rw [← line]
      exact isPrefixOf_iff_prefix.mpr (prefix_append _ _)
  | cons byte others ih =>
    have early : ¬filter.marker <+: byte :: others ++ payload := by
      rintro ⟨after, split⟩
      rcases append_eq_append_iff.mp split with ⟨more, inside, -⟩ | ⟨beyond, crossing, rest⟩
      · exact silent ⟨[], more, by rw [inside]; rfl⟩
      · cases beyond with
        | nil =>
          rw [append_nil] at crossing
          exact silent ⟨[], [], by rw [crossing]; simp⟩
        | cons first beyond =>
          obtain ⟨payloadRest, rfl⟩ := starts
          rw [marked] at rest
          have brace : (123 : UInt8) = first := (List.cons.inj rest).1
          apply filter.brace_not_mem_tail
          rw [crossing, brace]
          exact mem_append_right _ mem_cons_self
    rw [cons_append, position, if_neg, ih, map_some, length_cons]
    · intro inside
      exact silent (inside.trans (infix_cons infix_rfl))
    · intro front
      exact early <| isPrefixOf_iff_prefix.mp front

theorem position_silent {line : Bytes} (silent : ¬filter.marker <:+: line) :
    position filter.marker line = none := by
  induction line with
  | nil => rfl
  | cons byte rest ih =>
    have early : ¬filter.marker.isPrefixOf (byte :: rest) = true := fun front =>
      silent <| IsPrefix.isInfix <| isPrefixOf_iff_prefix.mp front
    rw [position, if_neg early, ih, map_none]
    exact fun inside => silent (inside.trans (infix_cons infix_rfl))

theorem locate_silent {line : Bytes} (silent : ¬filter.Names reader line) :
    filter.locate reader line = none := by
  rw [Names, not_or] at silent
  rw [locate, if_neg silent.1, position_silent silent.2]

/-- A fragment and the payload on one line: the payload is located, or the line as a whole
if the fragment is white space. -/
theorem locate_fragment {fragment payload : Bytes} (silent : ¬filter.Names reader fragment)
    (isPayload : filter.IsPayload reader payload) :
    filter.locate reader (fragment ++ payload) = some fragment.length ∨
      (filter.locate reader (fragment ++ payload) = some 0 ∧
        ∀ byte ∈ fragment, Brackets.isWhite byte.toNat) := by
  rw [Names, not_or] at silent
  unfold locate
  by_cases whole : filter.namesThisLoad reader (fragment ++ payload) = true
  · refine Or.inr ⟨if_pos whole, fun byte mem => ?_⟩
    have bracketed := bracketed_of_names whole
    rw [byteCodesOf, map_append] at bracketed
    obtain ⟨markerRest, marked⟩ := filter.exists_marker
    have starts : Brackets.StartsObject (byteCodesOf payload) := by
      obtain ⟨rest, rfl⟩ := isPayload.starts
      rw [marked]
      exact ⟨_, rfl⟩
    exact Brackets.white_of_bracketed_append bracketed (bracketed_of_names isPayload.named) starts
      _ (mem_map_of_mem mem)
  · rw [if_neg whole, position_fragment silent.2 isPayload.starts]
    dsimp only
    rw [drop_left]
    by_cases empty : fragment = []
    · rw [empty, nil_append] at whole
      exact absurd isPayload.named whole
    · exact Or.inl (if_pos ⟨length_pos_of_ne_nil empty, isPayload.named⟩)

end PayloadFilter

/-! ### The accumulator -/

structure PayloadAccumulator where
  line : Bytes
  oversized : Bool
  deriving DecidableEq, Repr

namespace PayloadAccumulator

def new : PayloadAccumulator := ⟨[], false⟩

/-- More of the line being read, or none of it once it is past the cap. -/
def extend (accumulator : PayloadAccumulator) (part : Bytes) : PayloadAccumulator :=
  if accumulator.oversized then accumulator
  else if accumulator.line.length + part.length > maxFilteredBytes then ⟨[], true⟩
  else ⟨accumulator.line ++ part, false⟩

variable (reader : NamedReader) (filter : PayloadFilter)

def endLine (accumulator : PayloadAccumulator) : Option Bytes × PayloadAccumulator :=
  match (if accumulator.oversized then none else filter.locate reader accumulator.line) with
  | some start => (some (accumulator.line.drop start), ⟨[], accumulator.oversized⟩)
  | none => (none, ⟨[], false⟩)

/-- The loop of `push`. Every turn takes a byte at least, so a chunk's length is fuel enough. -/
def pushLoop : ℕ → PayloadAccumulator → Bytes → Option Bytes × PayloadAccumulator
  | 0, accumulator, _ => (none, accumulator)
  | fuel + 1, accumulator, rest =>
    if rest = [] then (none, accumulator) else
    match firstLine newline rest with
    | none => (none, accumulator.extend rest)
    | some (part, rest) =>
      match (accumulator.extend part).endLine reader filter with
      | (some payload, accumulator) => (some payload, accumulator)
      | (none, accumulator) => pushLoop fuel accumulator rest

def push (accumulator : PayloadAccumulator) (chunk : Bytes) :
    Option Bytes × PayloadAccumulator :=
  pushLoop reader filter chunk.length accumulator chunk

/-- The reads of a load, up to the first payload: it, and the chunks not read. -/
def readPayload : PayloadAccumulator → List Bytes → Option Bytes × List Bytes
  | _, [] => (none, [])
  | accumulator, chunk :: chunks =>
    match accumulator.push reader filter chunk with
    | (some payload, _) => (some payload, chunks)
    | (none, accumulator) => readPayload accumulator chunks

/-! ### What the accumulator holds -/

/-- The accumulator after the bytes of an unfinished line. -/
def holding (text : Bytes) : PayloadAccumulator :=
  if text.length > maxFilteredBytes then ⟨[], true⟩ else ⟨text, false⟩

/-- What a finished line gives. -/
def acceptLine (line : Bytes) : Option Bytes :=
  if line.length > maxFilteredBytes then none
  else (filter.locate reader line).map fun start => line.drop start

/-- The first payload among the finished lines of a stream. -/
def firstPayload (stream : Bytes) : Option Bytes :=
  (splitLines newline stream).1.findSome? (acceptLine reader filter)

theorem new_eq_holding : new = holding [] := rfl

theorem extend_holding (text part : Bytes) :
    (holding text).extend part = holding (text ++ part) := by
  unfold holding extend
  rw [length_append]
  by_cases large : text.length > maxFilteredBytes
  · rw [if_pos large, if_pos rfl, if_pos (by omega)]
  · rw [if_neg large, if_neg Bool.false_ne_true]

theorem endLine_holding (text : Bytes) :
    (holding text).endLine reader filter =
      (acceptLine reader filter text, holding []) := by
  unfold holding endLine acceptLine
  by_cases large : text.length > maxFilteredBytes
  · rw [if_pos large, if_pos large, if_pos rfl]
    rfl
  · rw [if_neg large, if_neg large, if_neg Bool.false_ne_true]
    cases filter.locate reader text with
    | none => rfl
    | some start => rfl

/-- A chunk behind an unfinished line gives the first payload of the lines it finishes, or
leaves what is unfinished behind it. -/
theorem pushLoop_holding {fuel : ℕ} {text rest : Bytes} (enough : rest.length ≤ fuel)
    (unbroken : newline ∉ text) :
    (pushLoop reader filter fuel (holding text) rest).1 =
        firstPayload reader filter (text ++ rest) ∧
      (firstPayload reader filter (text ++ rest) = none →
        (pushLoop reader filter fuel (holding text) rest).2 =
          holding (unfinished newline (text ++ rest))) := by
  induction fuel generalizing text rest with
  | zero =>
    obtain rfl := eq_nil_of_length_eq_zero (Nat.le_zero.mp enough)
    rw [append_nil, firstPayload, splitLines_unbroken unbroken,
      unfinished_unbroken unbroken]
    exact ⟨rfl, fun _ => rfl⟩
  | succ fuel ih =>
    rw [pushLoop]
    by_cases empty : rest = []
    · subst empty
      rw [if_pos rfl, append_nil, firstPayload, splitLines_unbroken unbroken,
        unfinished_unbroken unbroken]
      exact ⟨rfl, fun _ => rfl⟩
    · rw [if_neg empty]
      rcases unbroken_or_line newline rest with whole | ⟨part, others, partUnbroken, rfl⟩
      · have allUnbroken : newline ∉ text ++ rest := fun mem =>
          (mem_append.mp mem).elim unbroken whole
        rw [firstLine_eq_none whole, firstPayload, splitLines_unbroken allUnbroken,
          unfinished_unbroken allUnbroken, extend_holding]
        exact ⟨rfl, fun _ => rfl⟩
      · have lineUnbroken : newline ∉ text ++ part := fun mem =>
          (mem_append.mp mem).elim unbroken partUnbroken
        have shorter : others.length ≤ fuel := by
          rw [length_append, length_cons] at enough
          omega
        rw [firstLine_append part others partUnbroken]
        dsimp only
        rw [extend_holding, endLine_holding, firstPayload, ← append_assoc,
          splitLines_line lineUnbroken, unfinished_line lineUnbroken, findSome?_cons]
        cases acceptLine reader filter (text ++ part) with
        | some payload => exact ⟨rfl, nofun⟩
        | none => exact ih shorter not_mem_nil

theorem firstPayload_append (left right : Bytes) :
    firstPayload reader filter (left ++ right) =
      (firstPayload reader filter left).or
        (firstPayload reader filter (unfinished newline left ++ right)) := by
  unfold firstPayload
  rw [splitLines_append, findSome?_append]

/-- What a load reads is a function of the stream alone. -/
theorem readPayload_holding {text : Bytes} {chunks : List Bytes} (unbroken : newline ∉ text) :
    (readPayload reader filter (holding text) chunks).1 =
      firstPayload reader filter (text ++ chunks.flatten) := by
  induction chunks generalizing text with
  | nil =>
    rw [flatten_nil, append_nil, firstPayload, splitLines_unbroken unbroken]
    rfl
  | cons chunk chunks ih =>
    obtain ⟨first, left⟩ := pushLoop_holding reader filter (Nat.le_refl chunk.length) unbroken
    rw [readPayload, push, flatten_cons, ← append_assoc, firstPayload_append]
    cases pushed : pushLoop reader filter chunk.length (holding text) chunk with
    | mk payload accumulator =>
      rw [pushed] at first left
      dsimp only at first left
      rw [← first]
      cases payload with
      | some payload => rfl
      | none =>
        rw [none_or, left first.symm]
        exact ih (not_mem_unfinished _ _)

/-! ### The payload is found -/

theorem acceptLine_silent {line : Bytes} (silent : ¬filter.Names reader line) :
    acceptLine reader filter line = none := by
  unfold acceptLine
  rw [PayloadFilter.locate_silent silent, map_none, ite_self]

variable {stale : List Bytes}

theorem findSome_silent (silent : ∀ line ∈ stale, ¬filter.Names reader line) :
    stale.findSome? (acceptLine reader filter) = none := by
  rw [findSome?_eq_none_iff]
  exact fun line mem => acceptLine_silent reader filter (silent line mem)

/-- The stream a load finds: stale lines, the fragment of a writer that was stopped, and the
payload. -/
def leftover (stale : List Bytes) (fragment payload : Bytes) : Bytes :=
  joinLines newline (stale ++ [fragment ++ payload])

/-- The payload, with the white space before it at most. -/
def IsResult (fragment payload result : Bytes) : Prop :=
  result = payload ∨
    ((∀ byte ∈ fragment, Brackets.isWhite byte.toNat) ∧ result = fragment ++ payload)

variable {fragment : Bytes}

section

variable (lines : ∀ line ∈ stale, newline ∉ line)

include lines

section

variable (stopped : newline ∉ fragment)

include stopped

theorem leftover_unbroken {payload : Bytes}
    (isPayload : filter.IsPayload reader payload) :
    ∀ line ∈ stale ++ [fragment ++ payload], newline ∉ line := by
  intro line mem
  rcases mem_append.mp mem with old | last
  · exact lines line old
  · rw [mem_singleton.mp last]
    exact fun inside => (mem_append.mp inside).elim stopped isPayload.unbroken

theorem firstPayload_leftover {payload : Bytes}
    (isPayload : filter.IsPayload reader payload)
    (silent : ∀ line ∈ stale, ¬filter.Names reader line) :
    firstPayload reader filter (leftover stale fragment payload) =
      acceptLine reader filter (fragment ++ payload) := by
  have unbroken := leftover_unbroken reader filter lines stopped isPayload
  rw [firstPayload, leftover, splitLines_joinLines unbroken, findSome?_append,
    findSome_silent reader filter silent, none_or, findSome?_singleton]

/-- Before the whole stream is read, only stale lines are finished. -/
theorem firstPayload_front {payload front rest : Bytes}
    (isPayload : filter.IsPayload reader payload)
    (silent : ∀ line ∈ stale, ¬filter.Names reader line) (more : rest ≠ [])
    (split : front ++ rest = leftover stale fragment payload) :
    firstPayload reader filter front = none := by
  have unbroken := leftover_unbroken reader filter lines stopped isPayload
  have divided := splitLines_joinLines unbroken
  rw [← leftover, ← split, splitLines_append, Prod.mk.injEq] at divided
  obtain ⟨finished, ended⟩ := divided
  have later : (splitLines newline (unfinished newline front ++ rest)).1 ≠ [] := by
    intro none
    have whole := unbroken_of_splitLines none
    rw [unfinished, ended] at whole
    exact more (append_eq_nil_iff.mp whole.symm).2
  rw [firstPayload]
  apply findSome_silent
  intro line mem
  rcases append_eq_append_iff.mp finished with ⟨others, same, -⟩ | ⟨others, same, last⟩
  · apply silent
    rw [same]
    exact mem_append_left _ mem
  · cases others with
    | nil =>
      rw [same, append_nil] at mem
      exact silent line mem
    | cons first others =>
      -- One line is left for both the front and what follows it.
      have none := append_eq_nil_iff.mp (List.cons.inj last).2.symm
      exact absurd none.2 later

end

end

theorem acceptLine_fragment {payload : Bytes} (silent : ¬filter.Names reader fragment)
    (isPayload : filter.IsPayload reader payload) :
    (∃ result, acceptLine reader filter (fragment ++ payload) = some result ∧
        IsResult fragment payload result) ↔
      fragment.length + payload.length ≤ maxFilteredBytes := by
  unfold acceptLine
  rw [length_append]
  constructor
  · rintro ⟨result, accepted, -⟩
    by_contra large
    rw [if_pos (Nat.lt_of_not_le large)] at accepted
    cases accepted
  · intro fits
    rw [if_neg (Nat.not_lt.mpr fits)]
    rcases PayloadFilter.locate_fragment silent isPayload with located | ⟨located, white⟩
    · refine ⟨payload, ?_, Or.inl rfl⟩
      rw [located, map_some, drop_left]
    · refine ⟨fragment ++ payload, ?_, Or.inr ⟨white, rfl⟩⟩
      rw [located, map_some, drop_zero]

/-- Whatever is left in the FIFO, and however the reads cut it, a load finds its payload when
the whole of it is read and nothing before, exactly if the fragment before the payload leaves
room for it under the line's cap. What is found never depends on the cut. -/
theorem payload_found_iff {stale chunks : List Bytes} {fragment payload : Bytes}
    (lines : ∀ line ∈ stale, newline ∉ line ∧ ¬filter.Names reader line)
    (stopped : newline ∉ fragment ∧ ¬filter.Names reader fragment)
    (isPayload : filter.IsPayload reader payload)
    (stream : chunks.flatten = leftover stale fragment payload) :
    ((∃ result, (readPayload reader filter new chunks).1 = some result ∧
        IsResult fragment payload result) ↔
      fragment.length + payload.length ≤ maxFilteredBytes) ∧
    (∀ before after, chunks = before ++ after → after.flatten ≠ [] →
      (readPayload reader filter new before).1 = none) ∧
    (∀ others : List Bytes, others.flatten = chunks.flatten →
      (readPayload reader filter new others).1 = (readPayload reader filter new chunks).1) := by
  have silent : ∀ line ∈ stale, ¬filter.Names reader line := fun line mem => (lines line mem).2
  have unbroken : ∀ line ∈ stale, newline ∉ line := fun line mem => (lines line mem).1
  have read (chunks : List Bytes) : (readPayload reader filter new chunks).1 =
      firstPayload reader filter chunks.flatten := by
    rw [new_eq_holding, readPayload_holding reader filter not_mem_nil, nil_append]
  refine ⟨?_, ?_, ?_⟩
  · rw [read, stream, firstPayload_leftover reader filter unbroken stopped.1 isPayload silent]
    exact acceptLine_fragment reader filter stopped.2 isPayload
  · rintro before after rfl more
    rw [read]
    rw [flatten_append] at stream
    exact firstPayload_front reader filter unbroken stopped.1 isPayload silent more stream
  · intro others same
    rw [read, read, same]

/-! ### A reader to run on -/

/-- The load id of a JSON document: a field that stands once, or the only item of an array,
as a derived `Deserialize` takes them. -/
def loadIdOf : Json → Option String
  | .object fields =>
    match fields.filter fun field => field.1 = "loadId" with
    | [(_, .string id)] => some id
    | _ => none
  | .array [.string id] => some id
  | _ => none

def readLoadId (toFloat : Text → UInt64) (bytes : Bytes) : Option String := do
  let text ← String.fromUTF8? ⟨bytes.toArray⟩
  let value ← Json.read toFloat text.toList
  loadIdOf value

/-- JSON, of texts that are checked to be one bracket. -/
def jsonReader (toFloat : Text → UInt64) : NamedReader where
  loadId bytes :=
    if Brackets.isBracketed (byteCodesOf bytes) then readLoadId toFloat bytes else none
  bracketed := by
    intro bytes id read
    split at read
    · next is => exact Brackets.bracketed_of_isBracketed is
    · cases read

def sampleReader : NamedReader := jsonReader fun _ => 0

def sampleFilter : PayloadFilter :=
  ⟨ascii "0123456789abcdef0123456789abcdef", all_eq_true.mp (by decide)⟩

def samplePayload : Bytes := sampleFilter.marker ++ ascii ",\"items\":[]\x7d"

theorem samplePayload_isPayload : sampleFilter.IsPayload sampleReader samplePayload :=
  ⟨prefix_append _ _, by decide +kernel, by decide +kernel, by decide +kernel⟩

/-- A stale line, a fragment and the payload, cut inside the marker. -/
theorem payload_found_iff_sample :
    ∃ result, (readPayload sampleReader sampleFilter new
        [ascii "[]\n\x7b\"lo", samplePayload.take 20, samplePayload.drop 20 ++ [newline]]).1 =
          some result ∧
      IsResult (ascii "\x7b\"lo") samplePayload result := by
  refine (@payload_found_iff sampleReader sampleFilter [ascii "[]"] _ _ _ ?_ ?_
    samplePayload_isPayload ?_).1.mpr ?_
  · decide +kernel
  · decide +kernel
  · decide
  · decide

/-- Text without a bracket does not name a load. -/
theorem not_names_replicate (reader : NamedReader) (filter : PayloadFilter) (count : ℕ) :
    ¬filter.Names reader (List.replicate count 97) := by
  rintro (named | inside)
  · obtain ⟨before, opening, body, closing, after, split, -, opens, -⟩ :=
      PayloadFilter.bracketed_of_names named
    have mem : opening ∈ byteCodesOf (List.replicate count 97) := by
      rw [split]
      exact mem_append_right _ mem_cons_self
    obtain ⟨byte, kept, rfl⟩ := mem_map.mp mem
    rw [eq_of_mem_replicate kept] at opens
    exact absurd opens (by decide)
  · obtain ⟨rest, marked⟩ := filter.exists_marker
    have brace : (123 : UInt8) ∈ List.replicate count 97 := by
      apply inside.subset
      rw [marked]
      exact mem_cons_self
    exact absurd (eq_of_mem_replicate brace) (by decide)

/-- A fragment as long as the cap hides the payload behind it, however it is read. -/
theorem payload_lost_behind_fragment :
    let fragment : Bytes := List.replicate 8388608 97
    newline ∉ fragment ∧ ¬sampleFilter.Names sampleReader fragment ∧
      sampleFilter.IsPayload sampleReader samplePayload ∧
      ∀ chunks : List Bytes, chunks.flatten = leftover [] fragment samplePayload →
        (readPayload sampleReader sampleFilter new chunks).1 = none := by
  intro fragment
  have stopped : newline ∉ fragment := fun mem => absurd (eq_of_mem_replicate mem) (by decide)
  refine ⟨stopped, not_names_replicate _ _ _, samplePayload_isPayload, fun chunks stream => ?_⟩
  rw [new_eq_holding, readPayload_holding _ _ not_mem_nil, nil_append, stream,
    firstPayload_leftover _ _ (fun _ mem => by cases mem) stopped samplePayload_isPayload
      (fun _ mem => by cases mem), acceptLine, if_pos]
  rw [length_append, length_replicate]
  decide

end PayloadAccumulator

end QsBitwarden.Agent
