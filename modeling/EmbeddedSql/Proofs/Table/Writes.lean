import EmbeddedSql.Json.Decoding
import EmbeddedSql.Proofs.Table.Rows

/-!
# Rows as ordered maps

A row is made by setting columns, by collecting pairs or by reading a JSON object, and all of
these are writes of values to columns, one after another. Of the writes a row keeps the order
of the first ones and the values of the last ones: every column that was written stands in it
once, where it was first written, with the value that was written to it last.
-/

namespace EmbeddedSql

open Json (NumberReading)

/-! ## Reading an object -/

/-- An object has the members behind its first one, if that one has a name. -/
theorem Json.members?_cons (name : Option String) (value : Json)
    (rest : List (Option String × Json)) :
    (Json.object ((name, value) :: rest)).members? =
      name.bind fun name => (Json.object rest).members?.map ((name, value) :: ·) := by
  rw [Json.members?, Json.members?, List.mapM_cons]
  cases name with
  | none => rfl
  | some name =>
    rw [Option.bind_some, Option.map_eq_bind]
    rfl

namespace Row

/-- The write that a member of a JSON object stands for. -/
def writeOf? (reading : NumberReading) (member : Option String × Json) :
    Option (String × Value) := do
  let name ← member.1
  let value ← Value.ofJson? reading member.2
  some (name, value)

/-- The row after the write that a member of a JSON object stands for. -/
def setMember? (reading : NumberReading) (row : Row) (member : Option String × Json) :
    Option Row :=
  (writeOf? reading member).map fun write => row.set write.1 write.2

variable {reading : NumberReading}

/-- Setting the members from left to right makes the writes that they stand for. -/
theorem foldlM_setMember? (members : List (Option String × Json)) (row : Row) :
    members.foldlM (setMember? reading) row =
      (members.mapM (writeOf? reading)).map row.setAll := by
  induction members generalizing row with
  | nil => rfl
  | cons member rest ih =>
    rw [List.foldlM_cons, List.mapM_cons, setMember?]
    cases writeOf? reading member with
    | none => rfl
    | some write =>
      simp only [Option.map_some, Option.bind_eq_bind, Option.bind_some, ih]
      cases rest.mapM (writeOf? reading) with
      | none => rfl
      | some writes => rfl

/-- The names are read before the values, which makes no difference. -/
theorem mapM_writeOf? (members : List (Option String × Json)) :
    members.mapM (writeOf? reading) = (Json.object members).members?.bind fun named =>
      named.mapM fun member => (Value.ofJson? reading member.2).map (member.1, ·) := by
  induction members with
  | nil => rfl
  | cons member rest ih =>
    obtain ⟨name, value⟩ := member
    rw [List.mapM_cons, ih, Json.members?_cons]
    cases name with
    | none => rfl
    | some name =>
      cases (Json.object rest).members? with
      | none => simp
      | some named =>
        cases hv : Value.ofJson? reading value with
        | none => simp [writeOf?, hv]
        | some v => simp [writeOf?, hv]

/-- A row is read from an object by setting its members from left to right. -/
theorem ofJson?_object (members : List (Option String × Json)) :
    ofJson? reading (.object members) = members.foldlM (setMember? reading) .empty := by
  rw [foldlM_setMember?, mapM_writeOf?, ofJson?]
  cases (Json.object members).members? with
  | none => rfl
  | some named =>
    simp only [Option.bind_eq_bind, Option.bind_some]
    cases named.mapM fun member => (Value.ofJson? reading member.2).map (member.1, ·) with
    | none => rfl
    | some writes => rfl

/-! ## The writes that made a row -/

/-- A row and the writes that made it, from the first one to the last one. -/
inductive Written (reading : NumberReading) : List (String × Value) → Row → Prop where
  /-- The row without columns. -/
  | empty : Written reading [] .empty
  /-- A column of a row is set. -/
  | set {writes : List (String × Value)} {row : Row} (h : Written reading writes row)
      (name : String) (value : Value) :
      Written reading (writes ++ [(name, value)]) (row.set name value)
  /-- A row is collected from pairs. -/
  | collect (pairs : List (String × Value)) : Written reading pairs (.ofList pairs)
  /-- A row is read from a JSON object. -/
  | read {members : List (Option String × Json)} {writes : List (String × Value)} {row : Row}
      (hwrites : members.mapM (writeOf? reading) = some writes)
      (hread : ofJson? reading (.object members) = some row) : Written reading writes row

variable {writes : List (String × Value)} {row : Row}

/-- Whatever made a row, its writes one after another make it too. -/
theorem Written.eq_ofList (h : Written reading writes row) : row = ofList writes := by
  induction h with
  | empty => rfl
  | set _ name value ih => rw [ih, ofList, ofList, setAll, setAll, List.foldl_append]; rfl
  | collect pairs => rfl
  | read hwrites hread =>
    rw [ofJson?_object, foldlM_setMember?, hwrites, Option.map_some] at hread
    exact (Option.some.inj hread).symm

/-! ## What a row keeps of them -/

/-- What is found under a name among pairs from the last one to the first is the value of the
last pair with the name. -/
theorem lookup_reverse (name : String) (pairs : List (String × Value)) :
    lookup name pairs.reverse = (pairs.findRev? fun pair => pair.1 == name).map Prod.snd := by
  rw [List.findRev?_eq_find?_reverse]
  induction pairs.reverse with
  | nil => rfl
  | cons pair rest ih =>
    obtain ⟨column, value⟩ := pair
    rw [lookup, List.find?_cons]
    by_cases he : column = name
    · simp only [he, if_true, BEq.rfl, Option.map_some]
    · simp only [he, if_false, beq_false_of_ne he, ih]

/-- Setting a column moves no other one. -/
theorem idxOf?_names_set {name other : String} (h : other ≠ name) (row : Row) (value : Value) :
    (row.set name value).names.idxOf? other = row.names.idxOf? other := by
  rw [names_set]
  split
  · rfl
  · simp [List.idxOf?, List.findIdx?_append, Ne.symm h]

/-- The JSON of a row with distinct columns has a member for each of them, in their order and
with its value. -/
theorem exists_toJson {row : Row} (h : row.names.Nodup) :
    ∃ members, row.toJson = .object members ∧
      List.Forall₂ (fun name member => ∃ value, row.get? name = some value ∧
        member = (some name, value.toJson)) row.names members := by
  refine ⟨_, rfl, ?_⟩
  rw [names, List.forall₂_map_left_iff, List.forall₂_map_right_iff, List.forall₂_same]
  intro pair hp
  exact ⟨pair.2, (lookup_eq_some_iff h).mpr hp, rfl⟩

/-- A row that was made by writes is an ordered map of them. Its columns are distinct and
stand in the order of their first writes, each with the value that was last written to it, and
nothing is found under a name that was not written. Another write leaves the values and the
places of all other columns. A row is read from a JSON object by setting the members from left
to right, and it is written as one that has each of its columns once, in their order. -/
theorem ordered_of_written (h : Written reading writes row) :
    row.names.Nodup ∧ row.names = (writes.map Prod.fst).eraseDups ∧
      (∀ name, row.get? name =
        (writes.findRev? fun write => write.1 == name).map Prod.snd) ∧
      (∀ name value other, other ≠ name →
        (row.set name value).get? other = row.get? other ∧
          (row.set name value).names.idxOf? other = row.names.idxOf? other) ∧
      (∀ members, ofJson? reading (.object members) =
        members.foldlM (setMember? reading) .empty) ∧
      ∃ members, row.toJson = .object members ∧
        List.Forall₂ (fun name member => ∃ value, row.get? name = some value ∧
          member = (some name, value.toJson)) (writes.map Prod.fst).eraseDups members := by
  obtain rfl := h.eq_ofList
  have hdistinct := nodup_names_ofList writes
  refine ⟨hdistinct, names_ofList writes, fun name => ?_, fun name value other ho => ⟨?_, ?_⟩,
    ofJson?_object, names_ofList writes ▸ exists_toJson hdistinct⟩
  · rw [ofList, get?_setAll, lookup_reverse]
    exact Option.or_none
  · rw [get?_set, if_neg (Ne.symm ho)]
  · exact idxOf?_names_set ho _ value

/-- A row that is read from an object with a repeated key, and then gets another column and a
new value for one of its own. -/
theorem ordered_of_written_again :
    let reading := Json.Numeral.withIntegers Json.Numeral.exact
    let members : List (Option String × Json) :=
      [(some "b", .boolean true), (some "a", .null), (some "b", .string (some "x"))]
    let read : Row := ⟨[("b", .text "x"), ("a", .null)]⟩
    let row := (read.set "c" (.boolean false)).set "a" (.text "y")
    ofJson? reading (.object members) = some read ∧
      Written reading [("b", .boolean true), ("a", .null), ("b", .text "x"),
        ("c", .boolean false), ("a", .text "y")] row ∧
      row.names = ["b", "a", "c"] ∧ row.get? "a" = some (.text "y") ∧ row.get? "d" = none := by
  intro reading members read row
  have hread : ofJson? reading (.object members) = some read := rfl
  have hwritten : Written reading [("b", .boolean true), ("a", .null), ("b", .text "x"),
      ("c", .boolean false), ("a", .text "y")] row :=
    ((Written.read rfl hread).set "c" (.boolean false)).set "a" (.text "y")
  obtain ⟨-, hnames, hvalues, -⟩ := ordered_of_written hwritten
  exact ⟨hread, hwritten, hnames, hvalues "a", hvalues "d"⟩

end Row

end EmbeddedSql
