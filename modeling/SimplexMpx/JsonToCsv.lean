import SimplexMpx.JsonToCsvCore
import SimplexMpx.RunRules

/-!
What `json_to_csv.py` leaves in its output file, whatever the report holds and wherever the script
stops: the file reads back as the header and the rows of the benchmarks it came to.
-/

namespace SimplexMpx.JsonToCsv

open CsvText RunRules

variable {Number : Type}

section Loops

variable {Item Result Failure : Type}

theorem mapM_ok_iff {convertItem : Item → Except Failure Result} {items : List Item}
    {results : List Result} :
    items.mapM convertItem = .ok results ↔
      List.Forall₂ (fun item result => convertItem item = .ok result) items results := by
  induction items generalizing results with
  | nil => simp [pure, Except.pure, eq_comm]
  | cons item items ih =>
      simp only [List.mapM_cons, bind_ok_iff, List.forall₂_cons_left_iff]
      constructor
      · rintro ⟨result, converted, rest, loop, same⟩
        simp only [pure, Except.pure, Except.ok.injEq] at same
        exact ⟨result, rest, converted, ih.1 loop, same.symm⟩
      · rintro ⟨result, rest, converted, loop, same⟩
        exact ⟨result, converted, rest, ih.2 loop, by simp [pure, Except.pure, same]⟩

theorem mapM_all_iff {convertItem : Item → Except Failure Result} {items : List Item}
    (good : Result → Prop) :
    (∃ results, items.mapM convertItem = .ok results ∧ ∀ result ∈ results, good result) ↔
      ∀ item ∈ items, ∃ result, convertItem item = .ok result ∧ good result := by
  simp only [mapM_ok_iff]
  induction items with
  | nil => simp
  | cons item items ih =>
      simp only [List.forall₂_cons_left_iff, List.forall_mem_cons, ← ih]
      constructor
      · rintro ⟨_, ⟨result, rest, first, loop, rfl⟩, all⟩
        rw [List.forall_mem_cons] at all
        exact ⟨⟨result, first, all.1⟩, rest, loop, all.2⟩
      · rintro ⟨⟨result, first, well⟩, rest, loop, all⟩
        exact ⟨_, ⟨result, rest, first, loop, rfl⟩, List.forall_mem_cons.2 ⟨well, all⟩⟩

theorem mapM_succeeds_iff {convertItem : Item → Except Failure Result} {items : List Item} :
    (∃ results, items.mapM convertItem = .ok results) ↔
      ∀ item ∈ items, ∃ result, convertItem item = .ok result := by
  simpa using @mapM_all_iff Item Result Failure convertItem items fun _ => True

end Loops

/-! Texts that can be written -/

def Encodes (text : Text) : Prop := ∀ point ∈ text, ¬ Surrogate point

theorem encodePoint_succeeds_iff {point : CodePoint} :
    (∃ character, encodePoint point = .ok character) ↔ ¬ Surrogate point := by
  have below := point.isLt
  have scalar : point.val.isValidChar ↔ ¬ Surrogate point := by
    simp only [Nat.isValidChar, Surrogate]
    omega
  rw [← scalar, encodePoint]
  by_cases valid : point.val.isValidChar
  · rw [dif_pos valid]
    exact iff_of_true ⟨_, rfl⟩ valid
  · rw [dif_neg valid]
    refine iff_of_false ?_ valid
    rintro ⟨character, ⟨⟩⟩

theorem encode_succeeds_iff {text : Text} :
    (∃ characters, encode text = .ok characters) ↔ Encodes text := by
  rw [encode, mapM_succeeds_iff]
  exact forall₂_congr fun point _ => encodePoint_succeeds_iff

theorem encodes_ofString (text : String) : Encodes (ofString text) := by
  intro point member
  obtain ⟨character, -, rfl⟩ := List.mem_map.1 member
  have valid := character.valid
  have same : character.val.toNat = (ofChar character).val := rfl
  simp only [UInt32.isValidChar, Nat.isValidChar, same] at valid
  simp only [Surrogate]
  omega

theorem encodes_append {first second : Text} :
    Encodes (first ++ second) ↔ Encodes first ∧ Encodes second := by
  simp only [Encodes, List.mem_append, or_imp, forall_and]

theorem encodes_intercalate {separator : Text} (between : Encodes separator) (texts : List Text) :
    Encodes (separator.intercalate texts) ↔ ∀ text ∈ texts, Encodes text := by
  induction texts with
  | nil => simp [Encodes]
  | cons text texts ih =>
      cases texts with
      | nil => simp
      | cons next texts =>
          rw [List.intercalate_cons_cons, encodes_append, encodes_append, ih]
          simp [between]

theorem cell_succeeds_iff [Python Number] {value : Value Number} :
    (∃ cell, value.cell = .ok cell) ↔ ∀ text, value = .string text → Encodes text := by
  cases value with
  | string text =>
      simp only [Value.string.injEq, forall_eq', ← encode_succeeds_iff]
      cases encoded : encode text <;> simp [Value.cell, encoded, Except.map]
  | _ => simp [Value.cell]

/-! The rows -/

def computedCols : List String := ["parameters", "runs", "minimum", "maximum"]

def Timed (run : Value Number) : Prop :=
  ∃ fields duration, run = .dict fields ∧ valueOf fields "duration" = some duration

def Assigns (parameter : Value Number) : Prop :=
  ∃ fields declaration value, parameter = .dict fields ∧
    valueOf fields "declaration" = some (.string declaration) ∧
      valueOf fields "value" = some (.string value) ∧ Encodes declaration ∧ Encodes value

/-- The entries of a benchmark the script can turn into a row. -/
structure WellFormed (entries : List (Text × Value Number)) : Prop where
  runs : ∃ runs items, valueOf entries "runs" = some runs ∧ runs.iterate = .ok items ∧
    items ≠ [] ∧ ∀ run ∈ items, Timed run
  parameters : ∀ parameters, valueOf entries "parameters" = some parameters →
    ∃ items, parameters.iterate = .ok items ∧ ∀ parameter ∈ items, Assigns parameter
  copied : ∀ name ∈ cols, name ∉ computedCols → ∀ text,
    valueOf entries name = some (.string text) → Encodes text

theorem subscript_ok_iff {value found : Value Number} {key : String} :
    value.subscript key = .ok found ↔
      ∃ entries, value = .dict entries ∧ valueOf entries key = some found := by
  cases value with
  | dict entries => cases looked : valueOf entries key <;> simp [Value.subscript, looked]
  | _ => simp [Value.subscript]

theorem parameterText_ok_iff {parameter : Value Number} {text : Text} :
    parameterText parameter = .ok text ↔
      ∃ fields declaration value, parameter = .dict fields ∧
        valueOf fields "declaration" = some (.string declaration) ∧
          valueOf fields "value" = some (.string value) ∧
            text = declaration ++ ofString "=" ++ value := by
  have addString_ok {value : Value Number} {suffix sum : Text} :
      value.addString suffix = .ok sum ↔ ∃ text, value = .string text ∧ sum = text ++ suffix := by
    cases value <;> simp [Value.addString, eq_comm]
  have stringAdd_ok {value : Value Number} {text sum : Text} :
      Value.stringAdd text value = .ok sum ↔
        ∃ suffix, value = .string suffix ∧ sum = text ++ suffix := by
    cases value <;> simp [Value.stringAdd, eq_comm]
  simp only [parameterText, bind_ok_iff, subscript_ok_iff, addString_ok, stringAdd_ok]
  constructor
  · rintro ⟨_, ⟨fields, rfl, declared⟩, _, ⟨declaration, rfl, rfl⟩, _, ⟨others, same, valued⟩,
      value, rfl, rfl⟩
    obtain rfl : fields = others := by simpa using same
    exact ⟨fields, declaration, value, rfl, declared, valued, rfl⟩
  · rintro ⟨fields, declaration, value, rfl, declared, valued, rfl⟩
    exact ⟨_, ⟨fields, rfl, declared⟩, _, ⟨declaration, rfl, rfl⟩, _, ⟨fields, rfl, valued⟩,
      value, rfl, rfl⟩

theorem durations_ok_iff {entries : List (Text × Value Number)} {found : List (Value Number)} :
    durations (.dict entries) = .ok found ↔
      ∃ runs items, valueOf entries "runs" = some runs ∧ runs.iterate = .ok items ∧
        List.Forall₂ (fun run duration => run.subscript "duration" = .ok duration) items found := by
  simp [durations, bind_ok_iff, subscript_ok_iff, mapM_ok_iff]

theorem parameterString_ok_iff {entries : List (Text × Value Number)} {text : Text} :
    parameterString (.dict entries) = .ok text ↔
      ∃ parameters items texts, valueOf entries "parameters" = some parameters ∧
        parameters.iterate = .ok items ∧
          List.Forall₂ (fun parameter text => parameterText parameter = .ok text) items texts ∧
            text = (ofString " ").intercalate texts := by
  simp only [parameterString, bind_ok_iff, subscript_ok_iff, mapM_ok_iff, pure, Except.pure,
    Except.ok.injEq]
  constructor
  · rintro ⟨parameters, ⟨others, same, looked⟩, items, iterated, texts, assembled, rfl⟩
    obtain rfl : entries = others := by simpa using same
    exact ⟨parameters, items, texts, looked, iterated, assembled, rfl⟩
  · rintro ⟨parameters, items, texts, looked, iterated, assembled, rfl⟩
    exact ⟨parameters, ⟨entries, rfl, looked⟩, items, iterated, texts, assembled, rfl⟩

def parametersOf (entries : List (Text × Value Number)) : Except PythonError (Value Number) :=
  match valueOf entries "parameters" with
  | none => .ok .null
  | some _ => (parameterString (.dict entries)).map .string

theorem durations_succeed_iff {entries : List (Text × Value Number)} :
    (∃ first rest, durations (.dict entries) = .ok (first :: rest)) ↔
      ∃ runs items, valueOf entries "runs" = some runs ∧ runs.iterate = .ok items ∧ items ≠ [] ∧
        ∀ run ∈ items, Timed run := by
  have each_run (items : List (Value Number)) :
      (∀ run ∈ items, ∃ duration, run.subscript "duration" = .ok duration) ↔
        ∀ run ∈ items, Timed run := by
    simp only [subscript_ok_iff]
    exact forall₂_congr fun run _ => exists_comm
  simp only [durations_ok_iff]
  constructor
  · rintro ⟨first, rest, runs, items, looked, iterated, timed⟩
    refine ⟨runs, items, looked, iterated, ?_, ?_⟩
    · rintro rfl
      cases timed
    · exact (each_run items).1 (mapM_succeeds_iff.1 ⟨_, mapM_ok_iff.2 timed⟩)
  · rintro ⟨runs, items, looked, iterated, nonempty, timed⟩
    obtain ⟨found, loop⟩ := mapM_succeeds_iff.2 ((each_run items).2 timed)
    rw [mapM_ok_iff] at loop
    cases loop with
    | nil => exact absurd rfl nonempty
    | cons first rest => exact ⟨_, _, runs, _, looked, iterated, .cons first rest⟩

theorem encodes_assigned {declaration value : Text} :
    Encodes (declaration ++ ofString "=" ++ value) ↔ Encodes declaration ∧ Encodes value := by
  simp [encodes_append, encodes_ofString]

theorem parameterText_writes_iff {parameter : Value Number} :
    (∃ text, parameterText parameter = .ok text ∧ Encodes text) ↔ Assigns parameter := by
  simp only [parameterText_ok_iff]
  constructor
  · rintro ⟨_, ⟨fields, declaration, value, same, declared, valued, rfl⟩, encodes⟩
    exact ⟨fields, declaration, value, same, declared, valued, encodes_assigned.1 encodes⟩
  · rintro ⟨fields, declaration, value, same, declared, valued, encodes⟩
    exact ⟨_, ⟨fields, declaration, value, same, declared, valued, rfl⟩,
      encodes_assigned.2 encodes⟩

theorem parameterString_writes_iff {entries : List (Text × Value Number)} :
    (∃ text, parameterString (.dict entries) = .ok text ∧ Encodes text) ↔
      ∃ parameters items, valueOf entries "parameters" = some parameters ∧
        parameters.iterate = .ok items ∧ ∀ parameter ∈ items, Assigns parameter := by
  have blank := encodes_ofString " "
  simp only [parameterString_ok_iff, ← parameterText_writes_iff, ← mapM_all_iff, mapM_ok_iff]
  constructor
  · rintro ⟨_, ⟨parameters, items, texts, looked, iterated, loop, rfl⟩, encodes⟩
    exact ⟨parameters, items, looked, iterated, texts, loop,
      (encodes_intercalate blank texts).1 encodes⟩
  · rintro ⟨parameters, items, looked, iterated, texts, loop, encodes⟩
    exact ⟨_, ⟨parameters, items, texts, looked, iterated, loop, rfl⟩,
      (encodes_intercalate blank texts).2 encodes⟩

theorem parametersOf_writes_iff [Python Number] {entries : List (Text × Value Number)} :
    (∃ parameters, parametersOf entries = .ok parameters ∧
        ∃ cell, parameters.cell = .ok cell) ↔
      ∀ parameters, valueOf entries "parameters" = some parameters →
        ∃ items, parameters.iterate = .ok items ∧
          ∀ parameter ∈ items, Assigns parameter := by
  simp only [cell_succeeds_iff]
  cases looked : valueOf entries "parameters" with
  | none => simp [parametersOf, looked]
  | some parameters =>
      have assembles : (∃ column, parametersOf entries = .ok column ∧
            ∀ text, column = .string text → Encodes text) ↔
          ∃ text, parameterString (.dict entries) = .ok text ∧ Encodes text := by
        cases assembled : parameterString (.dict entries) <;>
          simp [parametersOf, looked, assembled, Except.map]
      rw [assembles, parameterString_writes_iff]
      simp [looked]

/-! The fold behind `min` and `max` -/

def pickNumber (before : Number → Number → Bool) (current : Number) (numbers : List Number) :
    Number :=
  numbers.foldl (fun current item => if before item current then item else current) current

theorem pick_numbers {before : Number → Number → Bool}
    {compare : Value Number → Value Number → Except PythonError Bool}
    (compares : ∀ first second,
      compare (.number first) (.number second) = .ok (before first second))
    (current : Number) (numbers : List Number) :
    Value.pick compare (.number current) (numbers.map .number) =
      .ok (.number (pickNumber before current numbers)) := by
  induction numbers generalizing current with
  | nil => rfl
  | cons item numbers ih =>
      cases replaces : before item current with
      | true =>
          have next := ih item
          simpa [Value.pick, pickNumber, compares, replaces, bind, Except.bind] using next
      | false =>
          have next := ih current
          simpa [Value.pick, pickNumber, compares, replaces, bind, Except.bind] using next

theorem pickNumber_mem (before : Number → Number → Bool) (current : Number)
    (numbers : List Number) : pickNumber before current numbers ∈ current :: numbers := by
  induction numbers generalizing current with
  | nil => exact List.mem_singleton_self current
  | cons item numbers ih =>
      cases replaces : before item current with
      | true =>
          have member := ih item
          simp only [pickNumber, List.foldl_cons, replaces] at member ⊢
          exact List.mem_cons_of_mem _ member
      | false =>
          have member := ih current
          simp only [pickNumber, List.foldl_cons, replaces, List.mem_cons] at member ⊢
          exact member.imp_right .inr

theorem pickNumber_first {before : Number → Number → Bool}
    (asymmetric : ∀ first second, before first second = true → before second first = false)
    (between : ∀ first second third, before first third = true →
      before first second = true ∨ before second third = true)
    (current : Number) (numbers : List Number) :
    ∀ number ∈ current :: numbers, before number (pickNumber before current numbers) = false := by
  induction numbers generalizing current with
  | nil =>
      have irreflexive : before current current = false := by
        by_contra reflexive
        simp only [Bool.not_eq_false] at reflexive
        simp [asymmetric _ _ reflexive] at reflexive
      simpa [pickNumber] using irreflexive
  | cons item numbers ih =>
      intro number among
      cases replaces : before item current with
      | true =>
          have first := ih item
          simp only [pickNumber, List.foldl_cons, replaces] at first ⊢
          rcases List.mem_cons.1 among with rfl | among
          · by_contra earlier
            rcases between _ item _ (by simpa using earlier) with left | right
            · simp [asymmetric _ _ left] at replaces
            · exact absurd (first item (by simp)) (by simp [right])
          · exact first number among
      | false =>
          have first := ih current
          simp only [pickNumber, List.foldl_cons, replaces] at first ⊢
          simp only [List.mem_cons] at among
          rcases among with rfl | rfl | among
          · exact first _ (by simp)
          · by_contra earlier
            rcases between _ current _ (by simpa using earlier) with left | right
            · simp [left] at replaces
            · exact absurd (first current (by simp)) (by simp [right])
          · exact first number (List.mem_cons_of_mem _ among)

section Rows

variable [Python Number]

def rowOf (entries : List (Text × Value Number))
    (parameters runs minimum maximum : Value Number) : List (Value Number) :=
  let copied (name : String) := (valueOf entries name).getD .null
  [copied "fixture", copied "name", parameters, copied "iterations_per_run", copied "disabled",
    runs, copied "mean", copied "std_dev", copied "median", copied "quartile_1",
    copied "quartile_3", minimum, maximum]

theorem csvRow_dict (entries : List (Text × Value Number)) :
    csvRow (.dict entries) = do
      let parameters ← parametersOf entries
      let found ← durations (.dict entries)
      let least ← Value.minimum found
      let greatest ← Value.maximum found
      return rowOf entries parameters (.number (Python.ofNat found.length)) least greatest := by
  cases looked : valueOf entries "parameters" with
  | none =>
      simp [csvRow, cols, Value.get, Value.hasKey, looked, parametersOf, rowOf, bind,
        Except.bind, pure, Except.pure]
  | some parameters =>
      cases assembled : parameterString (.dict entries) <;>
        simp [csvRow, cols, Value.get, Value.hasKey, looked, assembled, parametersOf, rowOf, bind,
          Except.bind, pure, Except.pure, Except.map]

theorem csvRow_ok_iff {benchmark : Value Number} {row : List (Value Number)} :
    csvRow benchmark = .ok row ↔
      ∃ entries parameters found least greatest, benchmark = .dict entries ∧
        parametersOf entries = .ok parameters ∧ durations (.dict entries) = .ok found ∧
          Value.minimum found = .ok least ∧ Value.maximum found = .ok greatest ∧
            row = rowOf entries parameters (.number (Python.ofNat found.length)) least
              greatest := by
  cases benchmark with
  | dict entries =>
      simp only [csvRow_dict, bind_ok_iff, pure, Except.pure, Except.ok.injEq]
      constructor
      · rintro ⟨parameters, column, found, timed, least, smallest, greatest, largest, rfl⟩
        exact ⟨entries, parameters, found, least, greatest, rfl, column, timed, smallest, largest,
          rfl⟩
      · rintro ⟨_, parameters, found, least, greatest, same, column, timed, smallest, largest, rfl⟩
        obtain rfl : entries = _ := by simpa using same
        exact ⟨parameters, column, found, timed, least, smallest, greatest, largest, rfl⟩
  | _ => simp [csvRow, cols, Value.get, bind, Except.bind]

theorem csvRow_length {benchmark : Value Number} {row : List (Value Number)}
    (assembled : csvRow benchmark = .ok row) : row.length = cols.length := by
  obtain ⟨entries, parameters, found, least, greatest, -, -, -, -, -, rfl⟩ :=
    csvRow_ok_iff.1 assembled
  rfl

/-! The least and the greatest duration -/

/-- What `min` and `max` rely on; ints and floats other than NaN have it. -/
structure OrderedNumbers (Number : Type) [Python Number] : Prop where
  asymmetric : ∀ first second : Number,
    Python.less first second = true → Python.less second first = false
  between : ∀ first second third : Number, Python.less first third = true →
    Python.less first second = true ∨ Python.less second third = true

theorem minimum_numbers (first : Number) (numbers : List Number) :
    Value.minimum ((first :: numbers).map Value.number) =
      .ok (.number (pickNumber Python.less first numbers)) :=
  pick_numbers (fun _ _ => by simp [Value.less]) first numbers

theorem maximum_numbers (first : Number) (numbers : List Number) :
    Value.maximum ((first :: numbers).map Value.number) =
      .ok (.number (pickNumber (fun item current => Python.less current item) first numbers)) :=
  pick_numbers (fun _ _ => by simp [Value.less]) first numbers

def NumericDurations (benchmark : Value Number) : Prop :=
  ∀ found, durations benchmark = .ok found → ∃ numbers : List Number, found = numbers.map .number

theorem csvCells_ok_iff {benchmark : Value Number} {cells : List Cell} :
    csvCells benchmark = .ok cells ↔
      ∃ row, csvRow benchmark = .ok row ∧
        List.Forall₂ (fun value cell => value.cell = .ok cell) row cells := by
  simp only [csvCells, bind_ok_iff, mapM_ok_iff]

theorem rowOf_encodes_iff {entries : List (Text × Value Number)} {parameters : Value Number}
    {runs least greatest : Number} :
    (∃ cells, List.Forall₂ (fun value cell => value.cell = .ok cell)
        (rowOf entries parameters (.number runs) (.number least) (.number greatest)) cells) ↔
      (∃ cell, parameters.cell = .ok cell) ∧
        ∀ name ∈ cols, name ∉ computedCols → ∀ text,
          valueOf entries name = some (.string text) → Encodes text := by
  have copied (name : String) (text : Text) :
      (valueOf entries name).getD .null = .string text ↔
        valueOf entries name = some (.string text) := by
    cases valueOf entries name <;> simp
  simp only [← mapM_ok_iff, mapM_succeeds_iff, cell_succeeds_iff, rowOf, cols, computedCols]
  simp only [List.mem_cons, List.not_mem_nil, or_false, forall_eq_or_imp, copied, reduceCtorEq,
    IsEmpty.forall_iff, implies_true, forall_eq, and_self, and_true, true_and, not_or, and_imp,
    String.reduceEq, not_false_eq_true, forall_const, not_true_eq_false]
  constructor
  · rintro ⟨fixture, name, encodes, others⟩
    exact ⟨encodes, fixture, name, others⟩
  · rintro ⟨encodes, fixture, name, others⟩
    exact ⟨fixture, name, encodes, others⟩

theorem csvCells_succeeds_iff {benchmark : Value Number} (numeric : NumericDurations benchmark) :
    (∃ cells, csvCells benchmark = .ok cells) ↔
      ∃ entries, benchmark = .dict entries ∧ WellFormed entries := by
  constructor
  · rintro ⟨cells, written⟩
    obtain ⟨row, assembled, encoded⟩ := csvCells_ok_iff.1 written
    obtain ⟨entries, parameters, found, least, greatest, rfl, column, timed, smallest, largest,
      rfl⟩ := csvRow_ok_iff.1 assembled
    obtain ⟨numbers, rfl⟩ := numeric found timed
    cases numbers with
    | nil => simp [Value.minimum] at smallest
    | cons first numbers =>
        obtain rfl := Except.ok.inj ((minimum_numbers first numbers).symm.trans smallest)
        obtain rfl := Except.ok.inj ((maximum_numbers first numbers).symm.trans largest)
        obtain ⟨encodes, copied⟩ := rowOf_encodes_iff.1 ⟨cells, encoded⟩
        exact ⟨entries, rfl,
          { runs := durations_succeed_iff.1 ⟨_, _, timed⟩
            parameters := parametersOf_writes_iff.1 ⟨parameters, column, encodes⟩
            copied := copied }⟩
  · rintro ⟨entries, rfl, wellFormed⟩
    obtain ⟨parameters, column, encodes⟩ := parametersOf_writes_iff.2 wellFormed.parameters
    obtain ⟨first, rest, timed⟩ := durations_succeed_iff.2 wellFormed.runs
    obtain ⟨numbers, same⟩ := numeric _ timed
    cases numbers with
    | nil => simp at same
    | cons number numbers =>
        rw [same] at timed
        have assembled := csvRow_ok_iff.2 ⟨entries, parameters, _, _, _, rfl, column, timed,
          minimum_numbers number numbers, maximum_numbers number numbers, rfl⟩
        obtain ⟨cells, encoded⟩ := rowOf_encodes_iff.2 ⟨encodes, wellFormed.copied⟩
        exact ⟨cells, csvCells_ok_iff.2 ⟨_, assembled, encoded⟩⟩

def column (name : String) (row : List (Value Number)) : Option (Value Number) :=
  row[cols.idxOf name]?

structure Summary (benchmark : Value Number) (row : List (Value Number)) : Prop where
  copied : ∀ name ∈ cols, name ∉ computedCols →
    ∃ value, benchmark.get name = .ok value ∧ column name row = some value
  plain : benchmark.hasKey "parameters" = .ok false → column "parameters" row = some .null
  parameterised : benchmark.hasKey "parameters" = .ok true →
    ∃ text, parameterString benchmark = .ok text ∧ column "parameters" row = some (.string text)
  timed : ∃ numbers : List Number, durations benchmark = .ok (numbers.map .number) ∧
    column "runs" row = some (.number (Python.ofNat numbers.length)) ∧
      (∃ least ∈ numbers, column "minimum" row = some (.number least) ∧
        ∀ number ∈ numbers, Python.less number least = false) ∧
      ∃ greatest ∈ numbers, column "maximum" row = some (.number greatest) ∧
        ∀ number ∈ numbers, Python.less greatest number = false

omit [Python Number] in
theorem rowOf_copied {entries : List (Text × Value Number)}
    {parameters runs least greatest : Value Number} {name : String} (listed : name ∈ cols)
    (uncomputed : name ∉ computedCols) :
    column name (rowOf entries parameters runs least greatest) =
      some ((valueOf entries name).getD .null) := by
  simp only [cols, List.mem_cons, List.not_mem_nil, or_false] at listed
  simp only [computedCols, List.mem_cons, List.not_mem_nil, or_false, not_or] at uncomputed
  rcases listed with rfl | rfl | rfl | rfl | rfl | rfl | rfl | rfl | rfl | rfl | rfl | rfl |
    rfl <;> first | rfl | simp at uncomputed

theorem minimum_ordered (ordered : OrderedNumbers Number) {numbers : List Number}
    {least : Value Number} (smallest : Value.minimum (numbers.map .number) = .ok least) :
    ∃ number ∈ numbers, least = .number number ∧
      ∀ other ∈ numbers, Python.less other number = false := by
  cases numbers with
  | nil => simp [Value.minimum] at smallest
  | cons first numbers =>
      obtain rfl := Except.ok.inj ((minimum_numbers first numbers).symm.trans smallest)
      exact ⟨_, pickNumber_mem Python.less first numbers, rfl,
        pickNumber_first ordered.asymmetric ordered.between first numbers⟩

theorem maximum_ordered (ordered : OrderedNumbers Number) {numbers : List Number}
    {greatest : Value Number} (largest : Value.maximum (numbers.map .number) = .ok greatest) :
    ∃ number ∈ numbers, greatest = .number number ∧
      ∀ other ∈ numbers, Python.less number other = false := by
  cases numbers with
  | nil => simp [Value.maximum] at largest
  | cons first numbers =>
      obtain rfl := Except.ok.inj ((maximum_numbers first numbers).symm.trans largest)
      have asymmetric : ∀ item current : Number, Python.less current item = true →
          Python.less item current = false := fun _ _ => ordered.asymmetric _ _
      have between : ∀ item current third : Number, Python.less third item = true →
          Python.less current item = true ∨ Python.less third current = true :=
        fun _ _ _ earlier => (ordered.between _ _ _ earlier).symm
      exact ⟨_, pickNumber_mem (fun item current => Python.less current item) first numbers, rfl,
        pickNumber_first asymmetric between first numbers⟩

theorem csvRow_summarises (ordered : OrderedNumbers Number) {benchmark : Value Number}
    (numeric : NumericDurations benchmark) {row : List (Value Number)}
    (assembled : csvRow benchmark = .ok row) : Summary benchmark row := by
  obtain ⟨entries, parameters, found, least, greatest, rfl, assigned, timed, smallest, largest,
    rfl⟩ := csvRow_ok_iff.1 assembled
  obtain ⟨numbers, rfl⟩ := numeric found timed
  obtain ⟨least, among, rfl, none_below⟩ := minimum_ordered ordered smallest
  obtain ⟨greatest, among', rfl, none_above⟩ := maximum_ordered ordered largest
  refine ⟨fun name listed uncomputed => ⟨_, rfl, rowOf_copied listed uncomputed⟩, ?_, ?_, numbers,
    timed, by simp [column, cols, rowOf], ⟨least, among, by simp [column, cols, rowOf], none_below⟩,
    greatest, among', by simp [column, cols, rowOf], none_above⟩
  · intro absent
    have looked : valueOf entries "parameters" = none := by simpa [Value.hasKey] using absent
    have unassigned : parameters = .null := by simpa [parametersOf, looked, eq_comm] using assigned
    simp [unassigned, column, cols, rowOf]
  · intro present
    have looked : (valueOf entries "parameters").isSome = true := by
      simpa [Value.hasKey] using present
    obtain ⟨listed, looked⟩ := Option.isSome_iff_exists.1 looked
    cases joined : parameterString (.dict entries) with
    | error error => simp [parametersOf, looked, joined, Except.map] at assigned
    | ok text =>
        have same : Value.string text = parameters := by
          simpa [parametersOf, looked, joined, Except.map] using assigned
        exact ⟨text, rfl, by simp [← same, column, cols, rowOf]⟩

end Rows

/-! Reports whose numbers are natural -/

instance : Python Nat where
  ofNat number := number
  equal first second := first == second
  less first second := decide (first < second)
  str := Nat.repr
  reprString text := "'" ++ String.join (text.map fun point => Nat.repr point.val) ++ "'"

theorem natural_ordered : OrderedNumbers Nat where
  asymmetric first second := by
    simp only [Python.less, decide_eq_true_eq, decide_eq_false_iff_not]
    omega
  between first second third := by
    simp only [Python.less, decide_eq_true_eq]
    omega

/-- Three benchmarks: one with a parameter, one named by a lone surrogate, one without runs. -/
def sampleBenchmarks : List (Value Nat) :=
  [.dict [("name", .string "GPLoad"),
      ("parameters", .list [.dict [("declaration", .string "size"), ("value", .string "4096")]]),
      ("runs", .list [.dict [("duration", .number 7)], .dict [("duration", .number 5)]])],
    .dict [("name", .string [0xD800]), ("runs", .list [.dict [("duration", .number 3)]])],
    .dict [("name", .string "BNDLoad"), ("runs", .list [])]]

def sampleReport : Value Nat := .dict [("benchmarks", .list sampleBenchmarks)]

theorem sampleBenchmarks_numeric :
    ∀ benchmark ∈ sampleBenchmarks, NumericDurations benchmark := by
  intro benchmark member found timed
  simp only [sampleBenchmarks, List.mem_cons, List.not_mem_nil, or_false] at member
  rcases member with rfl | rfl | rfl
  · exact ⟨[7, 5], (Except.ok.inj timed).symm⟩
  · exact ⟨[3], (Except.ok.inj timed).symm⟩
  · exact ⟨[], (Except.ok.inj timed).symm⟩

/-! The file -/

variable [Python Number]

/-- The rows of the benchmarks up to the first that raises an exception. -/
structure WrittenUpTo (benchmarks : List (Value Number)) (table : List (List Cell))
    (raised : Option PythonError) : Prop where
  written : ∀ (position : Nat) cells, table[position]? = some cells →
    ∃ benchmark, benchmarks[position]? = some benchmark ∧ csvCells benchmark = .ok cells
  complete : raised = none → table.length = benchmarks.length
  stopped : ∀ error, raised = some error →
    ∃ benchmark, benchmarks[table.length]? = some benchmark ∧ csvCells benchmark = .error error

theorem writeBenchmarks_writes (benchmarks : List (Value Number)) (written : List Char) :
    ∃ table, WrittenUpTo benchmarks table (writeBenchmarks benchmarks written).raised ∧
      (writeBenchmarks benchmarks written).written = written ++ writeRows table := by
  induction benchmarks generalizing written with
  | nil =>
      refine ⟨[], { written := ?_, complete := ?_, stopped := ?_ }, ?_⟩ <;>
        simp [writeBenchmarks, writeRows]
  | cons benchmark benchmarks ih =>
      cases assembled : csvCells benchmark with
      | error error =>
          refine ⟨[], { written := ?_, complete := ?_, stopped := ?_ }, ?_⟩ <;>
            simp [writeBenchmarks, assembled, writeRows]
      | ok cells =>
          obtain ⟨table, upTo, text⟩ := ih (written ++ writeRow cells)
          have same : writeBenchmarks (benchmark :: benchmarks) written =
              writeBenchmarks benchmarks (written ++ writeRow cells) := by
            simp [writeBenchmarks, assembled]
          refine ⟨cells :: table, { written := ?_, complete := ?_, stopped := ?_ }, ?_⟩
          · intro position other found
            cases position with
            | zero =>
                obtain rfl : cells = other := by simpa using found
                exact ⟨benchmark, rfl, assembled⟩
            | succ position => simpa using upTo.written position other (by simpa using found)
          · intro unraised
            simp [upTo.complete (same ▸ unraised)]
          · intro error raised
            simpa using upTo.stopped error (same ▸ raised)
          · simp [same, text, writeRows]

def PlainNumbers (Number : Type) [Python Number] : Prop :=
  ∀ number : Number, (Python.str number).toList.any special = false

theorem natural_plain : PlainNumbers Nat := by
  intro number
  rw [List.any_eq_false]
  intro character member
  have among : character ∈ Nat.toDigits 10 number := by simpa [Python.str] using member
  have digit : character.isDigit = true :=
    Nat.isDigit_of_mem_toDigits (by decide) (by decide) among
  rintro marks
  simp only [special, Bool.or_eq_true, decide_eq_true_eq] at marks
  rcases marks with ((rfl | rfl) | rfl) | rfl <;> simp [quoteMark] at digit

theorem cell_plain (plain : PlainNumbers Number) {value : Value Number} {cell : Cell}
    (encoded : value.cell = .ok cell) : cell.Plain := by
  cases value with
  | number number =>
      obtain rfl := Except.ok.inj encoded
      exact plain number
  | bool value =>
      obtain rfl := Except.ok.inj encoded
      cases value <;> rfl
  | string text =>
      obtain ⟨characters, -, rfl⟩ : ∃ characters, encode text = .ok characters ∧
          Cell.text characters = cell := by
        cases encodes : encode text <;> simp_all [Value.cell, Except.map]
      trivial
  | _ =>
      obtain rfl := Except.ok.inj encoded
      trivial

theorem csvCells_length {benchmark : Value Number} {cells : List Cell}
    (written : csvCells benchmark = .ok cells) : cells.length = cols.length := by
  obtain ⟨row, assembled, encoded⟩ := csvCells_ok_iff.1 written
  rw [← encoded.length_eq, csvRow_length assembled]

theorem csvCells_plain (plain : PlainNumbers Number) {benchmark : Value Number}
    {cells : List Cell} (written : csvCells benchmark = .ok cells) :
    ∀ cell ∈ cells, cell.Plain := by
  obtain ⟨row, -, encoded⟩ := csvCells_ok_iff.1 written
  clear written
  induction encoded with
  | nil => simp
  | cons first _ ih => exact List.forall_mem_cons.2 ⟨cell_plain plain first, ih⟩

theorem WrittenUpTo.reads_back (plain : PlainNumbers Number) {benchmarks : List (Value Number)}
    {table : List (List Cell)} {raised : Option PythonError}
    (upTo : WrittenUpTo benchmarks table raised) :
    read (writeRow headerRow ++ writeRows table) = some (headerRow :: table) := by
  have row_written {cells : List Cell} (member : cells ∈ table) :
      ∃ benchmark : Value Number, csvCells benchmark = .ok cells := by
    obtain ⟨position, found⟩ := List.getElem?_of_mem member
    obtain ⟨benchmark, -, written⟩ := upTo.written position cells found
    exact ⟨benchmark, written⟩
  have whole := read_writeRows (headerRow :: table) ?_ ?_
  · simpa [writeRows] using whole
  · intro cells member
    rcases List.mem_cons.1 member with rfl | member
    · decide
    · obtain ⟨benchmark, written⟩ := row_written member
      rintro rfl
      simpa [cols] using csvCells_length written
  · intro cells member
    rcases List.mem_cons.1 member with rfl | member
    · intro cell among
      obtain ⟨col, -, rfl⟩ := List.mem_map.1 among
      trivial
    · obtain ⟨benchmark, written⟩ := row_written member
      exact csvCells_plain plain written

theorem convert_writes {document : Except PythonError (Value Number)}
    {benchmarks : List (Value Number)} (listed : benchmarksOf document = .ok benchmarks) :
    ∃ table, WrittenUpTo benchmarks table (convert document).raised ∧
      (convert document).written = writeRow headerRow ++ writeRows table := by
  have same : convert document = writeBenchmarks benchmarks (writeRow headerRow) := by
    simp [convert, listed]
  rw [same]
  exact writeBenchmarks_writes benchmarks (writeRow headerRow)

/-- Whatever the report holds and wherever the script stops, the file reads back as the header and
the rows of the benchmarks before the one that raised the exception. -/
theorem convert_reads_back (plain : PlainNumbers Number)
    (document : Except PythonError (Value Number)) :
    ∃ table, read (convert document).written = some (headerRow :: table) ∧
      (∀ benchmarks, benchmarksOf document = .ok benchmarks →
        WrittenUpTo benchmarks table (convert document).raised) ∧
      ∀ error, benchmarksOf document = .error error →
        table = [] ∧ (convert document).raised = some error := by
  cases listed : benchmarksOf document with
  | error error =>
      refine ⟨[], ?_, by simp, ?_⟩
      · have header : read (writeRow headerRow ++ writeRows []) = some [headerRow] :=
          @WrittenUpTo.reads_back Number _ plain [] [] none
            { written := by simp, complete := by simp, stopped := by simp }
        simpa [convert, listed, writeRows] using header
      · rintro _ ⟨⟩
        simp [convert, listed]
  | ok benchmarks =>
      obtain ⟨table, upTo, text⟩ := convert_writes listed
      refine ⟨table, ?_, ?_, by simp⟩
      · rw [text]
        exact upTo.reads_back plain
      · rintro _ ⟨⟩
        exact upTo

theorem convert_reads_back_sample :
    ∃ table, read (convert (.ok sampleReport)).written = some (headerRow :: table) ∧
      (∀ benchmarks, benchmarksOf (.ok sampleReport) = .ok benchmarks →
        WrittenUpTo benchmarks table (convert (.ok sampleReport)).raised) ∧
      ∀ error, benchmarksOf (.ok sampleReport) = .error error →
        table = [] ∧ (convert (.ok sampleReport)).raised = some error :=
  convert_reads_back natural_plain (.ok sampleReport)

/-- No exception is raised exactly when every benchmark of the report is well formed. -/
theorem convert_succeeds_iff (document : Except PythonError (Value Number))
    (numeric : ∀ benchmarks, benchmarksOf document = .ok benchmarks →
      ∀ benchmark ∈ benchmarks, NumericDurations benchmark) :
    (convert document).raised = none ↔
      ∃ benchmarks, benchmarksOf document = .ok benchmarks ∧
        ∀ benchmark ∈ benchmarks, ∃ entries, benchmark = .dict entries ∧ WellFormed entries := by
  cases listed : benchmarksOf document with
  | error error => simp [convert, listed]
  | ok benchmarks =>
      have numeric := numeric benchmarks listed
      obtain ⟨table, upTo, -⟩ := convert_writes listed
      constructor
      · intro unraised
        refine ⟨benchmarks, rfl, ?_⟩
        intro benchmark member
        obtain ⟨position, found⟩ := List.getElem?_of_mem member
        have bound : position < table.length := by
          rw [upTo.complete unraised]
          exact (List.getElem?_eq_some_iff.1 found).1
        obtain ⟨other, same, written⟩ :=
          upTo.written position table[position] (List.getElem?_eq_getElem bound)
        obtain rfl : benchmark = other := by simpa [found] using same
        exact (csvCells_succeeds_iff (numeric benchmark member)).1 ⟨_, written⟩
      · rintro ⟨_, ⟨⟩, wellFormed⟩
        cases raised : (convert document).raised with
        | none => rfl
        | some error =>
            obtain ⟨benchmark, found, failed⟩ := upTo.stopped error raised
            have member := List.mem_of_getElem? found
            obtain ⟨cells, written⟩ :=
              (csvCells_succeeds_iff (numeric benchmark member)).2 (wellFormed benchmark member)
            simp [failed] at written

theorem convert_succeeds_iff_sample :
    (convert (.ok sampleReport)).raised = none ↔
      ∃ benchmarks, benchmarksOf (.ok sampleReport) = .ok benchmarks ∧
        ∀ benchmark ∈ benchmarks, ∃ entries, benchmark = .dict entries ∧ WellFormed entries :=
  convert_succeeds_iff (.ok sampleReport) (by
    rintro _ ⟨⟩
    exact sampleBenchmarks_numeric)

end SimplexMpx.JsonToCsv
