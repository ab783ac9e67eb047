import ExprLex.Command.Options
import Mathlib

/-!
What the arguments of a command say. They fall into parts of one or two arguments each, and there is
only one way to take them apart. The options are read off the parts, unless what stands behind the
last part is a mistake.
-/
namespace ExprLex.Command

/-! ## Parts -/

inductive Flag where
  | raw
  | json
  | metrics
deriving DecidableEq

def Flag.word : Flag → String
  | .raw => "--raw"
  | .json => "--json"
  | .metrics => "--metrics"

def Dashed (argument : String) : Prop := ∃ name, argument = "--" ++ name

def known : List String := ["--raw", "--json", "--metrics", "--file", "--"]

/-- What one or two arguments say. -/
inductive Part where
  | switch (flag : Flag)
  | file (path : String)
  | marked (text : String)
  | plain (text : String)

namespace Part

def words : Part → List String
  | .switch flag => [flag.word]
  | .file path => ["--file", path]
  | .marked text => ["--", text]
  | .plain text => [text]

def input? : Part → Option Input
  | .switch _ => none
  | .file path => some (.file path)
  | .marked text => some (.expression text)
  | .plain text => some (.expression text)

def Proper : Part → Prop
  | .plain text => ¬ Dashed text
  | _ => True

end Part

/-- What stands behind the last part: nothing, `--` with nothing to mark, or a mistake. -/
inductive Ending where
  | complete
  | mark
  | pathless
  | unknown (option : String) (unread : List String)

namespace Ending

def words : Ending → List String
  | .complete => []
  | .mark => ["--"]
  | .pathless => ["--file"]
  | .unknown option unread => option :: unread

def problem? : Ending → Option UsageProblem
  | .complete => none
  | .mark => none
  | .pathless => some .missingPath
  | .unknown option _ => some (.unknownOption option)

def Proper : Ending → Prop
  | .unknown option _ => Dashed option ∧ option ∉ known
  | _ => True

end Ending

@[ext]
structure Reading where
  parts : List Part
  ending : Ending
  proper : ∀ part ∈ parts, part.Proper
  ended : ending.Proper

namespace Reading

def words (reading : Reading) : List String :=
  reading.parts.flatMap Part.words ++ reading.ending.words

def inputs (reading : Reading) : List Input := reading.parts.filterMap Part.input?

end Reading

/-! ## Taking arguments apart -/

variable {argument : String} {part : Part} {parts partsToo : List Part} {ending endingToo : Ending}

theorem isOption_iff : isOption argument = true ↔ Dashed argument := by
  rw [isOption, List.isPrefixOf_iff_prefix]
  constructor
  · rintro ⟨name, same⟩
    refine ⟨String.ofList name, String.toList_inj.mp ?_⟩
    rw [String.toList_append, ← same]
    exact congrArg (['-', '-'] ++ ·) String.toList_ofList.symm
  · rintro ⟨name, rfl⟩
    exact ⟨name.toList, by rw [String.toList_append]; rfl⟩

theorem dashed_of_known (member : argument ∈ known) : Dashed argument := by
  rw [← isOption_iff]
  revert argument
  decide

theorem Part.Proper.unknown {text : String} (proper : (Part.plain text).Proper) : text ∉ known :=
  fun member => proper (dashed_of_known member)

namespace Reading

def last (ending : Ending) (ended : ending.Proper) : Reading := ⟨[], ending, by simp, ended⟩

def cons (part : Part) (proper : part.Proper) (reading : Reading) : Reading :=
  ⟨part :: reading.parts, reading.ending, List.forall_mem_cons.mpr ⟨proper, reading.proper⟩,
    reading.ended⟩

end Reading

theorem exists_reading (arguments : List String) :
    ∃ reading : Reading, reading.words = arguments := by
  -- Arguments are taken apart as they are read, whatever has been read before.
  have draft : Draft := {}
  fun_induction Draft.read draft arguments with
  | case1 => exact ⟨.last .complete trivial, rfl⟩
  | case2 _ _ ih =>
      obtain ⟨reading, rfl⟩ := ih
      exact ⟨.cons (.switch .raw) trivial reading, rfl⟩
  | case3 _ _ _ ih =>
      obtain ⟨reading, rfl⟩ := ih
      exact ⟨.cons (.switch .json) trivial reading, rfl⟩
  | case4 _ _ _ _ ih =>
      obtain ⟨reading, rfl⟩ := ih
      exact ⟨.cons (.switch .metrics) trivial reading, rfl⟩
  | case5 => exact ⟨.last .pathless trivial, rfl⟩
  | case6 _ path _ _ _ _ ih =>
      obtain ⟨reading, rfl⟩ := ih
      exact ⟨.cons (.file path) trivial reading, rfl⟩
  | case7 => exact ⟨.last .mark trivial, rfl⟩
  | case8 _ text _ _ _ _ _ ih =>
      obtain ⟨reading, rfl⟩ := ih
      exact ⟨.cons (.marked text) trivial reading, rfl⟩
  | case9 _ option unread notRaw notJson notMetrics notFile notMark dashed =>
      have unknown : option ∉ known := by simp [known, *]
      exact ⟨.last (.unknown option unread) ⟨isOption_iff.mp dashed, unknown⟩, rfl⟩
  | case10 _ text _ _ _ _ _ _ plain ih =>
      obtain ⟨reading, rfl⟩ := ih
      exact ⟨.cons (.plain text) (mt isOption_iff.mpr plain) reading, rfl⟩

/-! ## Putting arguments together -/

def firstPart : List String → Part × List String ⊕ Ending
  | [] => .inr .complete
  | word :: rest =>
      if word = "--raw" then .inl (.switch .raw, rest)
      else if word = "--json" then .inl (.switch .json, rest)
      else if word = "--metrics" then .inl (.switch .metrics, rest)
      else if word = "--file" then
        match rest with
        | [] => .inr .pathless
        | path :: rest => .inl (.file path, rest)
      else if word = "--" then
        match rest with
        | [] => .inr .mark
        | text :: rest => .inl (.marked text, rest)
      else if isOption word then .inr (.unknown word rest)
      else .inl (.plain word, rest)

theorem firstPart_words (proper : part.Proper) (rest : List String) :
    firstPart (part.words ++ rest) = .inl (part, rest) := by
  cases part with
  | switch flag => cases flag <;> rfl
  | file path => rfl
  | marked text => rfl
  | plain text =>
      have unknown := proper.unknown
      have plain : ¬ isOption text = true := mt isOption_iff.mp proper
      simp only [known, List.mem_cons, not_or] at unknown
      simp [Part.words, firstPart, unknown, plain]

theorem firstPart_ending (ended : ending.Proper) : firstPart ending.words = .inr ending := by
  cases ending with
  | complete => rfl
  | mark => rfl
  | pathless => rfl
  | unknown option unread =>
      obtain ⟨dashed, unknown⟩ := ended
      simp only [known, List.mem_cons, not_or] at unknown
      simp [Ending.words, firstPart, unknown, isOption_iff.mpr dashed]

theorem parts_unique (proper : ∀ part ∈ parts, part.Proper)
    (properToo : ∀ part ∈ partsToo, part.Proper) (ended : ending.Proper)
    (endedToo : endingToo.Proper) (same : parts.flatMap Part.words ++ ending.words =
      partsToo.flatMap Part.words ++ endingToo.words) : parts = partsToo ∧ ending = endingToo := by
  -- The words tell the first part, so the two lists agree part by part.
  induction parts generalizing partsToo with
  | nil =>
      have read := congrArg firstPart same
      rw [List.flatMap_nil, List.nil_append, firstPart_ending ended] at read
      cases partsToo with
      | nil =>
          rw [List.flatMap_nil, List.nil_append, firstPart_ending endedToo] at read
          exact ⟨rfl, Sum.inr.inj read⟩
      | cons other partsToo =>
          obtain ⟨first, -⟩ := List.forall_mem_cons.mp properToo
          rw [List.flatMap_cons, List.append_assoc, firstPart_words first] at read
          cases read
  | cons part parts ih =>
      obtain ⟨first, others⟩ := List.forall_mem_cons.mp proper
      have read := congrArg firstPart same
      rw [List.flatMap_cons, List.append_assoc, firstPart_words first] at read
      cases partsToo with
      | nil =>
          rw [List.flatMap_nil, List.nil_append, firstPart_ending endedToo] at read
          cases read
      | cons other partsToo =>
          obtain ⟨firstToo, othersToo⟩ := List.forall_mem_cons.mp properToo
          rw [List.flatMap_cons, List.append_assoc, firstPart_words firstToo] at read
          obtain ⟨rfl, later⟩ := Prod.mk.inj (Sum.inl.inj read)
          obtain ⟨rfl, rfl⟩ := ih others othersToo later
          exact ⟨rfl, rfl⟩

theorem Reading.words_injective : Function.Injective Reading.words := by
  intro reading other same
  obtain ⟨parts, ending⟩ :=
    parts_unique reading.proper other.proper reading.ended other.ended same
  exact Reading.ext parts ending

/-! ## Reading parts -/

namespace Draft

def has (draft : Draft) : Flag → Bool
  | .raw => draft.raw
  | .json => draft.json
  | .metrics => draft.metrics

def after (draft : Draft) : Part → Draft
  | .switch .raw => { draft with raw := true }
  | .switch .json => { draft with json := true }
  | .switch .metrics => { draft with metrics := true }
  | .file path => { draft with input := some (.file path) }
  | .marked text => { draft with input := some (.expression text) }
  | .plain text => { draft with input := some (.expression text) }

theorem after_input (draft : Draft) (part : Part) :
    (draft.after part).input = part.input?.or draft.input := by
  rcases part with (_ | _ | _) | _ | _ | _ <;> rfl

theorem after_has (draft : Draft) (part : Part) (flag : Flag) :
    (draft.after part).has flag = true ↔ draft.has flag = true ∨ part = .switch flag := by
  rcases part with (_ | _ | _) | _ | _ | _ <;> cases flag <;> simp [after, has]

theorem foldl_after_input (draft : Draft) (parts : List Part) :
    (parts.foldl after draft).input = (parts.filterMap Part.input?).getLast?.or draft.input := by
  induction parts using List.reverseRecOn with
  | nil => rfl
  | append_singleton parts part ih =>
      rw [List.foldl_concat, after_input, ih, List.filterMap_append]
      cases given : part.input? with
      | none => simp [given]
      | some input => simp [given]

theorem foldl_after_has (draft : Draft) (parts : List Part) (flag : Flag) :
    (parts.foldl after draft).has flag = true ↔
      draft.has flag = true ∨ .switch flag ∈ parts := by
  induction parts generalizing draft with
  | nil => simp
  | cons part parts ih =>
      rw [List.foldl_cons, ih, after_has, List.mem_cons, or_assoc, @eq_comm _ part]

theorem read_eq (draft : Draft) (arguments : List String) : draft.read arguments =
    match firstPart arguments with
    | .inl (part, rest) => (draft.after part).read rest
    | .inr ending =>
        match ending.problem? with
        | some problem => .error problem
        | none => .ok draft := by
  rw [read.eq_def]
  fun_cases firstPart arguments <;> simp [after, Ending.problem?, *]

theorem read_part (proper : part.Proper) (draft : Draft) (rest : List String) :
    draft.read (part.words ++ rest) = (draft.after part).read rest := by
  rw [read_eq, firstPart_words proper]

theorem read_parts (proper : ∀ part ∈ parts, part.Proper) (draft : Draft) (rest : List String) :
    draft.read (parts.flatMap Part.words ++ rest) = (parts.foldl after draft).read rest := by
  induction parts generalizing draft with
  | nil => rfl
  | cons part parts ih =>
      obtain ⟨first, others⟩ := List.forall_mem_cons.mp proper
      rw [List.flatMap_cons, List.append_assoc, read_part first, ih others, List.foldl_cons]

theorem read_ending (ended : ending.Proper) (draft : Draft) : draft.read ending.words =
    match ending.problem? with
    | some problem => .error problem
    | none => .ok draft := by
  rw [read_eq, firstPart_ending ended]

end Draft

/-! ## Options -/

def Options.has (options : Options) : Flag → Bool
  | .raw => options.raw
  | .json => options.json
  | .metrics => options.metrics

def Draft.options (draft : Draft) (input : Input) : Options :=
  ⟨draft.raw, draft.json, draft.metrics, input⟩

theorem Options.eq_of_has {options optionsToo : Options} (input : options.input = optionsToo.input)
    (flags : ∀ flag, options.has flag = true ↔ optionsToo.has flag = true) :
    options = optionsToo := by
  have raw := Bool.eq_iff_iff.mpr (flags .raw)
  have json := Bool.eq_iff_iff.mpr (flags .json)
  have metrics := Bool.eq_iff_iff.mpr (flags .metrics)
  cases options
  cases optionsToo
  simp_all [has]

theorem Draft.options_has (draft : Draft) (input : Input) (flag : Flag) :
    (draft.options input).has flag = draft.has flag := by
  cases flag <;> rfl

theorem Draft.options_eq_iff {draft : Draft} {input : Input} {options : Options} :
    draft.options input = options ↔
      input = options.input ∧ ∀ flag, options.has flag = true ↔ draft.has flag = true := by
  constructor
  · rintro rfl
    exact ⟨rfl, fun flag => by rw [options_has]⟩
  · rintro ⟨same, flags⟩
    exact Options.eq_of_has same fun flag => by rw [options_has, flags]

theorem ofArguments_eq {draft : Draft} {arguments : List String}
    (read : ({} : Draft).read arguments = .ok draft) : Options.ofArguments arguments =
      match draft.input with
      | some input => .ok (draft.options input)
      | none => .error .noInput := by
  simp only [Options.ofArguments, read, bind, Except.bind]
  cases draft.input <;> rfl

/-- Whether the options, or the problem instead of them, are those of a reading: its mistake, or
that it gives no input, or else the input given last and the flags that are among its parts. -/
structure Reading.Gives (reading : Reading) (result : Except UsageProblem Options) : Prop where
  fails : ∀ problem, result = .error problem ↔ reading.ending.problem? = some problem ∨
    reading.ending.problem? = none ∧ reading.inputs = [] ∧ problem = .noInput
  succeeds : ∀ options, result = .ok options ↔ reading.ending.problem? = none ∧
    reading.inputs.getLast? = some options.input ∧
    ∀ flag, options.has flag = true ↔ .switch flag ∈ reading.parts

theorem Reading.gives (reading : Reading) : reading.Gives (Options.ofArguments reading.words) := by
  have read : ({} : Draft).read reading.words = _ :=
    (Draft.read_parts reading.proper {} _).trans (Draft.read_ending reading.ended _)
  have input : (reading.parts.foldl Draft.after {}).input = reading.inputs.getLast? :=
    (Draft.foldl_after_input {} reading.parts).trans (Option.or_none ..)
  have flags (flag : Flag) : (reading.parts.foldl Draft.after {}).has flag = true ↔
      .switch flag ∈ reading.parts := by
    rw [Draft.foldl_after_has, or_iff_right (by cases flag <;> decide)]
  cases mistake : reading.ending.problem? with
  | some problem =>
      have result : Options.ofArguments reading.words = .error problem := by
        simp only [Options.ofArguments, read, mistake, bind, Except.bind]
      constructor <;> simp [result, mistake]
  | none =>
      rw [mistake] at read
      have result := ofArguments_eq read
      rw [input] at result
      cases given : reading.inputs.getLast? with
      | none =>
          have nothing := List.getLast?_eq_none_iff.mp given
          rw [given] at result
          constructor <;> simp [result, mistake, nothing, @eq_comm _ UsageProblem.noInput]
      | some last =>
          have something : reading.inputs ≠ [] := fun nothing => by simp [nothing] at given
          rw [given] at result
          constructor <;> simp [result, mistake, given, something, Draft.options_eq_iff, flags]

/-! ## Flags around a marked expression -/

section
variable {text : String} {before behind : List Flag} {options : Options}

def flagged (before : List Flag) (text : String) (behind : List Flag) : List String :=
  before.map Flag.word ++ ["--", text] ++ behind.map Flag.word

def Reading.flagged (before : List Flag) (text : String) (behind : List Flag) : Reading where
  parts := before.map .switch ++ [.marked text] ++ behind.map .switch
  ending := .complete
  proper := by
    simp only [List.mem_append, List.mem_map, List.mem_singleton]
    rintro part ((⟨flag, -, rfl⟩ | rfl) | ⟨flag, -, rfl⟩) <;> trivial
  ended := trivial

theorem Reading.flagged_words (before : List Flag) (text : String) (behind : List Flag) :
    (Reading.flagged before text behind).words = Command.flagged before text behind := by
  have single (flags : List Flag) :
      (flags.map Part.switch).flatMap Part.words = flags.map Flag.word := by
    rw [List.flatMap_map, List.map_eq_flatMap]
    rfl
  simp [words, flagged, Command.flagged, single, Part.words, Ending.words]

theorem Reading.flagged_inputs (before : List Flag) (text : String) (behind : List Flag) :
    (Reading.flagged before text behind).inputs = [.expression text] := by
  have nothing (flags : List Flag) : (flags.map Part.switch).filterMap Part.input? = [] := by
    rw [List.filterMap_map]
    exact List.filterMap_eq_nil_iff.mpr fun _ _ => rfl
  simp [inputs, flagged, nothing, Part.input?]

theorem ofArguments_flagged : Options.ofArguments (flagged before text behind) = .ok options ↔
    options.input = .expression text ∧
      ∀ flag, options.has flag = true ↔ flag ∈ before ++ behind := by
  have gives := (Reading.flagged before text behind).gives.succeeds options
  rw [Reading.flagged_words, Reading.flagged_inputs] at gives
  rw [gives]
  simp [Reading.flagged, Ending.problem?, @eq_comm _ (Input.expression text)]

end

/-! ## Command lines -/

/-- The arguments of a command can be read in one way, and its options are those of the reading.
Whatever a marked expression looks like, it is the input, and the flags around it may stand in any
order. -/
theorem ofArguments_reads :
    (∀ arguments, ∃ reading : Reading, reading.words = arguments ∧
      reading.Gives (Options.ofArguments arguments) ∧
      ∀ other : Reading, other.words = arguments → other = reading) ∧
    ∀ (text : String) (before behind : List Flag), ∃ options,
      Options.ofArguments (flagged before text behind) = .ok options ∧
      options.input = .expression text ∧
      (∀ flag, options.has flag = true ↔ flag ∈ before ++ behind) ∧
      ∀ beforeToo behindToo, (beforeToo ++ behindToo).Perm (before ++ behind) →
        Options.ofArguments (flagged beforeToo text behindToo) = .ok options := by
  constructor
  · intro arguments
    obtain ⟨reading, rfl⟩ := exists_reading arguments
    exact ⟨reading, rfl, reading.gives, fun other same => Reading.words_injective same⟩
  · intro text before behind
    let given (flag : Flag) : Bool := decide (flag ∈ before ++ behind)
    let options : Options := ⟨given .raw, given .json, given .metrics, .expression text⟩
    have flags (flag : Flag) : options.has flag = true ↔ flag ∈ before ++ behind := by
      cases flag <;> exact decide_eq_true_iff
    refine ⟨options, ofArguments_flagged.mpr ⟨rfl, flags⟩, rfl, flags, ?_⟩
    intro beforeToo behindToo perm
    exact ofArguments_flagged.mpr ⟨rfl, fun flag => (flags flag).trans perm.mem_iff.symm⟩

theorem ofArguments_reads_dashes :
    (∃ reading : Reading, reading.words = ["--file", "--raw"] ∧
      reading.Gives (Options.ofArguments ["--file", "--raw"]) ∧
      reading.parts = [.file "--raw"]) ∧
    ([] ++ [Flag.json, .raw, .raw]).Perm ([Flag.raw] ++ [Flag.json, .raw]) ∧
    Options.ofArguments ["--", "--json", "--json", "--raw", "--raw"] =
      .ok ⟨true, true, false, .expression "--json"⟩ := by
  obtain ⟨read, marked⟩ := ofArguments_reads
  constructor
  · obtain ⟨reading, words, gives, unique⟩ := read ["--file", "--raw"]
    have same := unique (.cons (.file "--raw") trivial (.last .complete trivial)) rfl
    exact ⟨reading, words, gives, same ▸ rfl⟩
  · obtain ⟨options, -, input, flags, reordered⟩ := marked "--json" [.raw] [.json, .raw]
    have perm : ([] ++ [Flag.json, .raw, .raw]).Perm ([Flag.raw] ++ [Flag.json, .raw]) := by decide
    obtain rfl : options = ⟨true, true, false, .expression "--json"⟩ :=
      Options.eq_of_has input fun flag => (flags flag).trans (by cases flag <;> decide)
    exact ⟨perm, reordered [] [.json, .raw, .raw] perm⟩

end ExprLex.Command
