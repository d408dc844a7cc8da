import HomeProvision.Machine.Basic
import HomeProvision.Machine.Seed
import HomeProvision.Proofs.Contract
import HomeProvision.Proofs.Encoded
import HomeProvision.Proofs.Numerals
import HomeProvision.Settings.Environment
import Mathlib.Data.List.Basic

/-!
# Assignments in a file

A file of assignments has a line for each of them: a key, an equals sign and the value in quotes, with
any white space between these parts and around them. Other lines are comments, are blank or have no
equals sign (`WritesFile`). A value may hold whatever fits on a line, quotes, blanks and equals signs
too: the line is split at its first equals sign, and of what follows only the blanks around it and
then one quote at either end are taken off (`assignment?_written`).

So a requested key has the last value that is not empty among those written for it, and the lines for
other keys make no difference (`readEnvironment_written`).
-/

namespace HomeProvision

open HomeProvision.Text HomeProvision.Number

namespace Environment

/-! ## Writings -/

/-- Whether a text ends no line. -/
def IsSolid (cs : List Char) : Prop :=
  ∀ c ∈ cs, isLineBreak c = false

instance (cs : List Char) : Decidable (IsSolid cs) :=
  List.decidableBAll _ cs

/-- Whether a text is white space that ends no line. -/
def IsPadding (cs : List Char) : Prop :=
  IsSolid cs ∧ ∀ c ∈ cs, isBlank c = true

instance (cs : List Char) : Decidable (IsPadding cs) :=
  haveI : Decidable (∀ c ∈ cs, isBlank c = true) := List.decidableBAll _ cs
  instDecidableAnd

/-- What a line can assign to. -/
structure IsKey (cs : List Char) : Prop where
  nonempty : cs ≠ []
  solid : IsSolid cs
  noEquals : '=' ∉ cs
  noMark : cs.head? ≠ some '#'
  first : ∀ c, cs.head? = some c → isBlank c = false
  last : ∀ c, cs.getLast? = some c → isBlank c = false

instance (cs : List Char) : Decidable (IsKey cs) :=
  haveI (o : Option Char) : Decidable (∀ c, o = some c → isBlank c = false) :=
    Option.decidableForallMem o
  decidable_of_iff (cs ≠ [] ∧ IsSolid cs ∧ '=' ∉ cs ∧ cs.head? ≠ some '#' ∧
      (∀ c, cs.head? = some c → isBlank c = false) ∧
        ∀ c, cs.getLast? = some c → isBlank c = false)
    ⟨fun ⟨nonempty, solid, noEquals, noMark, first, last⟩ =>
        ⟨nonempty, solid, noEquals, noMark, first, last⟩,
      fun h => ⟨h.nonempty, h.solid, h.noEquals, h.noMark, h.first, h.last⟩⟩

/-- What is written in a line, and what the line assigns. -/
inductive WritesLine : (line : List Char) → (assigned : Option (String × String)) → Prop
  | assignment {lead before after trail : List Char} {key value : String} {quote : Char}
      (isKey : IsKey key.toList) (solid : IsSolid value.toList) (quotes : quote = '"' ∨ quote = '\'')
      (padded : IsPadding lead) (padded₁ : IsPadding before) (padded₂ : IsPadding after)
      (padded₃ : IsPadding trail) :
      WritesLine
        (lead ++ (key.toList ++ before ++ '=' :: (after ++ quote :: (value.toList ++ [quote]))) ++ trail)
        (some (key, value))
  | comment {lead text : List Char} (padded : IsPadding lead) (solid : IsSolid text) :
      WritesLine (lead ++ '#' :: text) none
  | other {text : List Char} (noEquals : '=' ∉ text) (solid : IsSolid text) : WritesLine text none

/-- What is written for the end of a line. -/
def EndsLine (ending : List Char) : Prop :=
  ending = ['\r', '\n'] ∨ ∃ c, isLineBreak c = true ∧ ending = [c]

/-- What is written in a file, and what the file assigns. The last line may lack an end. -/
inductive WritesFile : (text : List Char) → (assigned : List (String × String)) → Prop
  | done : WritesFile [] []
  | last {line : List Char} {a : Option (String × String)} (writes : WritesLine line a) :
      WritesFile line a.toList
  | line {line ending rest : List Char} {a : Option (String × String)}
      {as : List (String × String)} (writes : WritesLine line a) (ends : EndsLine ending)
      (others : WritesFile rest as) : WritesFile (line ++ (ending ++ rest)) (a.toList ++ as)

/-- Whether a value is not empty and the last such value for a key. -/
def IsLastValue (assigned : List (String × String)) (key value : String) : Prop :=
  value ≠ "" ∧ ∃ before after, assigned = before ++ (key, value) :: after ∧
    ∀ a ∈ after, a.1 = key → a.2 = ""

/-! ## Lines -/

section

variable {line ending rest lead before after trail key cs : List Char} {value : List Char}
  {quote : Char} {a : Option (String × String)}

theorem IsSolid.append {cs ds : List Char} (h : IsSolid cs) (h' : IsSolid ds) : IsSolid (cs ++ ds) :=
  List.forall_mem_append.mpr ⟨h, h'⟩

theorem IsSolid.cons {c : Char} {cs : List Char} (first : isLineBreak c = false) (h : IsSolid cs) :
    IsSolid (c :: cs) :=
  List.forall_mem_cons.mpr ⟨first, h⟩

/-- What is written in a line ends no line. -/
theorem WritesLine.solid (writes : WritesLine line a) : IsSolid line := by
  cases writes with
  | comment padded solid => exact padded.1.append (.cons (by decide) solid)
  | other _ solid => exact solid
  | @assignment _ _ _ _ _ _ quote isKey solid quotes lead before after trail =>
    have marked : isLineBreak quote = false := by rcases quotes with rfl | rfl <;> decide
    have closed : IsSolid [quote] := List.forall_mem_singleton.mpr marked
    exact (lead.1.append ((isKey.solid.append before.1).append (.cons (by decide)
      (after.1.append (.cons marked (solid.append closed)))))).append trail.1

theorem unquote_quoted (quotes : quote = '"' ∨ quote = '\'') (cs : List Char) :
    unquote (quote :: (cs ++ [quote])) = cs := by
  have closed : (quote :: (cs ++ [quote])).getLast? = some quote := by
    rw [← List.cons_append, List.getLast?_concat]
  have marked : quote = '"' || quote = '\'' := by simpa using quotes
  rw [unquote, if_pos (by rw [marked, closed]; simp), List.dropLast_concat]

/-- What a line assigns is told by what stands before and after its first equals sign. -/
theorem assignment?_eq {name value : List Char} (split : trim line = name ++ '=' :: value)
    (free : '=' ∉ name) (noMark : name.head? ≠ some '#') :
    assignment? line =
      some (String.ofList (trim name), String.ofList (unquote (trim value))) := by
  have other : ∀ c ∈ name, (decide (c ≠ '=')) = true := by
    intro c mem
    simpa using ne_of_mem_of_not_mem mem free
  have start : (name ++ '=' :: value).head? ≠ some '#' := by
    cases name with
    | nil => simp
    | cons c name => exact noMark
  unfold assignment?
  dsimp only
  rw [split, List.takeWhile_append_of_pos other, List.dropWhile_append_of_pos other,
    List.takeWhile_cons_of_neg (by simp), List.dropWhile_cons_of_neg (by simp), List.append_nil]
  exact if_neg start

theorem assignment?_noEquals (free : '=' ∉ line) : assignment? line = none := by
  obtain ⟨before, after, -, -, whole⟩ := exists_trimBoth isBlank line
  have other : ∀ c ∈ trim line, (decide (c ≠ '=')) = true := by
    intro c mem
    have inside : c ∈ line := by
      rw [whole]
      exact List.mem_append_left _ (List.mem_append_right _ mem)
    simpa using ne_of_mem_of_not_mem inside free
  unfold assignment?
  dsimp only
  rw [List.dropWhile_eq_nil_iff.mpr other]

theorem assignment?_comment (padded : IsPadding lead) : assignment? (lead ++ '#' :: cs) = none := by
  have start : trim (lead ++ '#' :: cs) = '#' :: trimEnd isBlank cs := by
    rw [trim, trimBoth, List.dropWhile_append_of_pos padded.2]
    exact trimBoth_cons (by decide)
  unfold assignment?
  rw [start]
  dsimp only
  split <;> rfl

/-- Of the white space in a line for an assignment, only what stands in quotes counts. -/
theorem assignment?_written (isKey : IsKey key) (quotes : quote = '"' ∨ quote = '\'')
    (padded : IsPadding lead) (padded₁ : IsPadding before) (padded₂ : IsPadding after)
    (padded₃ : IsPadding trail) :
    assignment? (lead ++ (key ++ before ++ '=' :: (after ++ quote :: (value ++ [quote]))) ++ trail) =
      some (String.ofList key, String.ofList value) := by
  have marked : isBlank quote = false := by rcases quotes with rfl | rfl <;> decide
  have last : ∀ front : List Char, ∀ c, (front ++ quote :: (value ++ [quote])).getLast? = some c →
      isBlank c = false := by
    intro front c here
    rw [← List.cons_append, ← List.append_assoc, List.getLast?_concat] at here
    exact Option.some.inj here ▸ marked
  have whole : trim (lead ++ (key ++ before ++ '=' :: (after ++ quote :: (value ++ [quote]))) ++ trail) =
      key ++ before ++ '=' :: (after ++ quote :: (value ++ [quote])) := by
    refine trimBoth_append padded.2 padded₃.2 (fun c here => isKey.first c ?_) fun c here => ?_
    · rwa [List.append_assoc, List.head?_append_of_ne_nil _ isKey.nonempty] at here
    · rw [← List.cons_append, ← List.append_assoc] at here
      exact last _ c here
  have name : trim ([] ++ key ++ before) = key :=
    trimBoth_append (by simp) padded₁.2 isKey.first isKey.last
  have quoted : trim (after ++ quote :: (value ++ [quote]) ++ []) = quote :: (value ++ [quote]) :=
    trimBoth_append padded₂.2 (by simp) (fun c here => Option.some.inj here ▸ marked) (last [])
  rw [List.nil_append] at name
  rw [List.append_nil] at quoted
  have free : '=' ∉ key ++ before := List.not_mem_append isKey.noEquals fun mem => by
    have blank := padded₁.2 '=' mem
    revert blank
    decide
  have noMark : (key ++ before).head? ≠ some '#' := by
    rw [List.head?_append_of_ne_nil _ isKey.nonempty]
    exact isKey.noMark
  rw [assignment?_eq whole free noMark, name, quoted, unquote_quoted quotes]

/-- A line assigns what it is written for. -/
theorem WritesLine.assignment?_eq (writes : WritesLine line a) : assignment? line = a := by
  cases writes with
  | comment padded => exact assignment?_comment padded
  | other noEquals => exact assignment?_noEquals noEquals
  | assignment isKey _ quotes padded padded₁ padded₂ padded₃ =>
    rw [assignment?_written isKey quotes padded padded₁ padded₂ padded₃, String.ofList_toList,
      String.ofList_toList]

end

/-! ## Files -/

section

variable {line ending rest text : List Char} {assigned : List (String × String)}

/-- What follows a line assigns the same when the line is passed over, also if a return ends it and
what follows starts with a line feed. -/
theorem EndsLine.splitLines_eq (ends : EndsLine ending) (rest : List Char) : ∃ more,
    splitLines (ending ++ rest) = [] :: more ∧ more.filterMap assignment? = assignments rest := by
  rcases ends with rfl | ⟨c, ends, rfl⟩
  · exact ⟨splitLines rest, by rw [List.cons_append, List.cons_append, splitLines]; rfl, rfl⟩
  by_cases paired : c = '\r' ∧ ∃ rest', rest = '\n' :: rest'
  · obtain ⟨rfl, rest', rfl⟩ := paired
    refine ⟨splitLines rest', by rw [List.cons_append, List.nil_append, splitLines], ?_⟩
    rw [assignments, splitLines_break (by decide) (by simp)]
    rfl
  · exact ⟨splitLines rest, splitLines_break ends fun rest' same follows =>
      paired ⟨same, rest', follows⟩, rfl⟩

/-- A line and what follows it assign one after the other. -/
theorem assignments_line (solid : IsSolid line) (ends : EndsLine ending) (rest : List Char) :
    assignments (line ++ (ending ++ rest)) = (assignment? line).toList ++ assignments rest := by
  obtain ⟨more, split, same⟩ := ends.splitLines_eq rest
  rw [assignments, splitLines_append solid split, ← same]
  cases found : assignment? line <;> simp [found]

theorem assignments_solid (solid : IsSolid line) : assignments line = (assignment? line).toList := by
  rw [assignments, splitLines_solid solid]
  split
  · next empty => rw [empty]; rfl
  · cases found : assignment? line <;> simp [found]

/-- A file assigns what it is written for. -/
theorem WritesFile.assignments_eq (writes : WritesFile text assigned) :
    assignments text = assigned := by
  induction writes with
  | done => rfl
  | last writes => rw [assignments_solid writes.solid, writes.assignment?_eq]
  | line writes ends _ others =>
    rw [assignments_line writes.solid ends, writes.assignment?_eq, others]

theorem assignments_unifyLineEnds (cs : List Char) : assignments (unifyLineEnds cs) = assignments cs := by
  rw [assignments, splitLines_unifyLineEnds, assignments]

end

/-! ## Values -/

section

variable {assigned assigned' : List (String × String)} {keys : List String} {key value : String}

theorem value?_eq_some_iff :
    value? assigned key = some value ↔ IsLastValue assigned key value := by
  have chosen : ∀ a : String × String, (decide (a.1 = key) && decide (a.2 ≠ "")) = true ↔
      a.1 = key ∧ a.2 ≠ "" := by simp
  unfold value? IsLastValue
  rw [Option.map_eq_some_iff]
  constructor
  · rintro ⟨a, last, rfl⟩
    obtain ⟨front, whole⟩ := List.getLast?_eq_some_iff.mp last
    obtain ⟨before, tail, rfl, -, rest⟩ := List.filter_eq_append_iff.mp whole
    obtain ⟨between, after, rfl, -, here, others⟩ := List.filter_eq_cons_iff.mp rest
    obtain ⟨rfl, full⟩ := (chosen a).mp here
    refine ⟨full, before ++ between, after, by rw [List.append_assoc], fun b mem same => ?_⟩
    by_contra full
    exact List.filter_eq_nil_iff.mp others b mem ((chosen b).mpr ⟨same, full⟩)
  · rintro ⟨full, before, after, rfl, empty⟩
    refine ⟨(key, value), ?_, rfl⟩
    have others : after.filter (fun a => a.1 = key && a.2 ≠ "") = [] :=
      List.filter_eq_nil_iff.mpr fun b mem here =>
        ((chosen b).mp here).2 (empty b mem ((chosen b).mp here).1)
    rw [List.filter_append, List.filter_cons_of_pos (by simpa using full), others,
      List.getLast?_concat]

/-- The value of a requested key stands on the lines for requested keys. -/
theorem value?_filter (mem : key ∈ keys) :
    value? (assigned.filter (·.1 ∈ keys)) key = value? assigned key := by
  have same : ∀ a ∈ assigned, ((decide (a.1 = key) && decide (a.2 ≠ "")) && decide (a.1 ∈ keys)) =
      (decide (a.1 = key) && decide (a.2 ≠ "")) := by
    intro a _
    by_cases here : a.1 = key
    · simp [here, mem]
    · simp [here]
  unfold value?
  rw [List.filter_filter, List.filter_congr same]

theorem nodup_eraseDups (keys : List String) : keys.eraseDups.Nodup := by
  induction length : keys.length using Nat.strong_induction_on generalizing keys with
  | _ n ih =>
    cases keys with
    | nil => simp
    | cons key keys =>
      have shorter : (keys.filter fun k => !k == key).length < n := by
        have bound := List.length_filter_le (fun k => !k == key) keys
        rw [← length, List.length_cons]
        omega
      rw [List.eraseDups_cons, List.nodup_cons]
      exact ⟨by simp [List.mem_eraseDups], ih _ shorter _ rfl⟩

theorem mem_select {text : List Char} : (key, value) ∈ select keys text ↔
    key ∈ keys ∧ value? (assignments text) key = some value := by
  unfold select
  rw [List.mem_filterMap]
  constructor
  · rintro ⟨k, mem, here⟩
    obtain ⟨v, found, same⟩ := Option.map_eq_some_iff.mp here
    obtain ⟨rfl, rfl⟩ := Prod.mk.inj same
    exact ⟨List.mem_eraseDups.mp mem, found⟩
  · rintro ⟨mem, found⟩
    exact ⟨key, List.mem_eraseDups.mpr mem, by rw [found]; rfl⟩

/-- No key has two values. -/
theorem nodup_select (keys : List String) (text : List Char) :
    ((select keys text).map Prod.fst).Nodup := by
  have once := nodup_eraseDups keys
  unfold select
  rw [List.Nodup, List.pairwise_map, List.pairwise_filterMap]
  refine once.imp fun apart a here b there => ?_
  obtain ⟨v, -, rfl⟩ := Option.map_eq_some_iff.mp here
  obtain ⟨w, -, rfl⟩ := Option.map_eq_some_iff.mp there
  exact apart

/-- What is assigned to other keys makes no difference. -/
theorem select_congr {text text' : List Char}
    (same : (assignments text').filter (·.1 ∈ keys) = (assignments text).filter (·.1 ∈ keys)) :
    select keys text' = select keys text := by
  unfold select
  refine List.filterMap_congr fun key mem => ?_
  have mem := List.mem_eraseDups.mp mem
  rw [← value?_filter mem, same, value?_filter mem]

end

end Environment

/-- A machine with a file of assignments in its root. -/
def Machine.withAssignments (content : String) : Machine :=
  ({} : Machine).withTree (({} : Machine).tree.plant {
    path := "/.env"
    body := .node (.file content.toUTF8.data.toList)
    mode := 0o644 })

/-- Whether a world shows a text in the file with assignments of a directory. -/
def Layer.ShowsAssignments {σ : Type} (world : Layer σ) (directory : String) (s : σ) (text : String) :
    Prop :=
  (world.reply (.readFile (Path.plain (Path.join directory Environment.fileName))) s).1 =
    .ok text.toUTF8.data.toList

instance {σ : Type} (world : Layer σ) (directory : String) (s : σ) (text : String) :
    Decidable (world.ShowsAssignments directory s text) :=
  inferInstanceAs (Decidable (_ = Except.ok text.toUTF8.data.toList))

namespace Program

open Environment

variable {σ : Type} {world : Layer σ} {s : σ} {directory text : String}
  {assigned : List (String × String)}

/-- Reading a file comes to what its lines assign to the requested keys. -/
theorem readEnvironment_run (shown : world.ShowsAssignments directory s text) (keys : List String) :
    ((readEnvironment directory keys).run world s).1 = .ok (select keys (unifyLineEnds text.toList)) := by
  unfold readEnvironment readFile
  rw [bind_eq, run_bind, run_attempt, run_call, run_ofExcept, shown]
  have read : (readText text.toUTF8.data.toList).mapError (fun e => Fault.settings (.encoding e)) =
      .ok (unifyLineEnds text.toList) := by
    rw [readText_toUTF8]
    rfl
  dsimp only [run]
  rw [read]
  rfl

/-- What is written in the file of a directory is read from it: a requested key has the last value
that is not empty among those that are assigned to it, no other key has one, and the lines that
assign to other keys or to none make no difference. -/
theorem readEnvironment_written (shown : world.ShowsAssignments directory s text)
    (writes : WritesFile text.toList assigned) (keys : List String) :
    ∃ values, ((readEnvironment directory keys).run world s).1 = .ok values ∧
      (values.map Prod.fst).Nodup ∧
      (∀ key value, (key, value) ∈ values ↔ key ∈ keys ∧ IsLastValue assigned key value) ∧
      ∀ {σ' : Type} (world' : Layer σ') (s' : σ') (directory' text' : String)
        (assigned' : List (String × String)), world'.ShowsAssignments directory' s' text' →
        WritesFile text'.toList assigned' →
        assigned'.filter (·.1 ∈ keys) = assigned.filter (·.1 ∈ keys) →
        ((readEnvironment directory' keys).run world' s').1 = .ok values := by
  have lines : ∀ {cs as}, WritesFile cs as → assignments (unifyLineEnds cs) = as := by
    intro cs as writes
    rw [assignments_unifyLineEnds, writes.assignments_eq]
  refine ⟨_, readEnvironment_run shown keys, nodup_select keys _, fun key value => ?_, ?_⟩
  · rw [mem_select, lines writes, value?_eq_some_iff]
  · intro σ' world' s' directory' text' assigned' shown' writes' same
    rw [readEnvironment_run shown' keys, select_congr]
    rw [lines writes, lines writes', same]

/-- A value with signs, quotes and blanks in it, among lines that make no difference. -/
theorem readEnvironment_written_mixed : ∃ values,
    ((readEnvironment "/" ["KEY", "NONE"]).run Machine.layer
      (.withAssignments "# KEY='a'\r\n KEY\t= \"=#' \" \nKEY2='b'\n\nKEY=''\nKEY")).1 = .ok values ∧
    ("KEY", "=#' ") ∈ values ∧ (∀ value, ("KEY2", value) ∉ values) ∧
    ((readEnvironment "/" ["KEY", "NONE"]).run Machine.layer
      (.withAssignments "KEY='=#' '\nKEY=\"\"")).1 = .ok values := by
  have comment : WritesLine "# KEY='a'".toList none :=
    @WritesLine.comment [] " KEY='a'".toList (by decide) (by decide)
  have padded : WritesLine " KEY\t= \"=#' \" ".toList (some ("KEY", "=#' ")) :=
    @WritesLine.assignment [' '] ['\t'] [' '] [' '] "KEY" "=#' " '"' (by decide) (by decide)
      (by decide) (by decide) (by decide) (by decide) (by decide)
  have other : WritesLine "KEY2='b'".toList (some ("KEY2", "b")) :=
    @WritesLine.assignment [] [] [] [] "KEY2" "b" '\'' (by decide) (by decide)
      (by decide) (by decide) (by decide) (by decide) (by decide)
  have empty : ∀ quote, quote = '"' ∨ quote = '\'' →
      WritesLine ("KEY=".toList ++ [quote, quote]) (some ("KEY", "")) := fun quote quotes =>
    @WritesLine.assignment [] [] [] [] "KEY" "" quote (by decide) (by decide) quotes
      (by decide) (by decide) (by decide) (by decide)
  have plain : WritesLine "KEY='=#' '".toList (some ("KEY", "=#' ")) :=
    @WritesLine.assignment [] [] [] [] "KEY" "=#' " '\'' (by decide) (by decide)
      (by decide) (by decide) (by decide) (by decide) (by decide)
  have blank : WritesLine [] none := .other (by decide) (by decide)
  have bare : WritesLine "KEY".toList none := .other (by decide) (by decide)
  have feed : EndsLine ['\n'] := .inr ⟨'\n', by decide, rfl⟩
  have writes : WritesFile
      "# KEY='a'\r\n KEY\t= \"=#' \" \nKEY2='b'\n\nKEY=''\nKEY".toList
      [("KEY", "=#' "), ("KEY2", "b"), ("KEY", "")] :=
    .line comment (.inl rfl) (.line padded feed (.line other feed (.line blank feed
      (.line (empty '\'' (.inr rfl)) feed (.last bare)))))
  have writes' : WritesFile "KEY='=#' '\nKEY=\"\"".toList [("KEY", "=#' "), ("KEY", "")] :=
    .line plain feed (.last (empty '"' (.inl rfl)))
  obtain ⟨values, read, -, given, unchanged⟩ := readEnvironment_written
    (show Machine.layer.ShowsAssignments "/" (.withAssignments
      "# KEY='a'\r\n KEY\t= \"=#' \" \nKEY2='b'\n\nKEY=''\nKEY") _ by decide +kernel)
    writes ["KEY", "NONE"]
  refine ⟨values, read, (given _ _).mpr ⟨by decide, by decide, [], [("KEY2", "b"), ("KEY", "")], rfl,
    by decide⟩, fun value mem => absurd ((given _ _).mp mem).1 (by decide), ?_⟩
  exact unchanged _ _ _ _ _ (by decide +kernel) writes' (by decide)

end Program

end HomeProvision
