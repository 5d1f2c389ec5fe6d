import Mathlib.Data.List.Basic
import SlideDeck.Proofs.Text.Lines
import SlideDeck.Proofs.Toml.Quoted
import SlideDeck.Toml.Document

/-!
# Documents of texts are read as they were written

A document whose lines give texts to keys without quotes, no key twice, is read as these texts under
these keys (`readDocument_assignments`). Each line is read on its own (`readLines_assignment`), and
the document follows by recursion on its lines.
-/

set_option autoImplicit false

namespace SlideDeck.Toml

open SlideDeck.Text

/-- The line that gives a text to a key. -/
def assignment (key value : Text) : Text := key ++ " = ".toList ++ write value

/-- A key that can stand without quotes. -/
structure IsKey (key : Text) : Prop where
  nonempty : key ≠ []
  plain : ∀ c ∈ key, isKeyChar c = true

/-! ## Keys -/

/-- A character of keys begins neither a table nor a comment, and no blank and no line end is
one. -/
theorem ne_of_isKeyChar {c : Char} (plain : isKeyChar c = true) :
    c ≠ '[' ∧ c ≠ '#' ∧ c ≠ '\n' ∧ c ≠ '\r' ∧ isSpace c = false ∧ c ≠ encodingMark := by
  refine ⟨?_, ?_, ?_, ?_, ?_, ?_⟩
  · rintro rfl
    exact absurd plain (by decide)
  · rintro rfl
    exact absurd plain (by decide)
  · rintro rfl
    exact absurd plain (by decide)
  · rintro rfl
    exact absurd plain (by decide)
  · rw [← Bool.not_eq_true]
    intro space
    simp only [isSpace, Bool.or_eq_true, beq_iff_eq] at space
    rcases space with rfl | rfl <;> exact absurd plain (by decide)
  · rintro rfl
    exact absurd plain (by decide)

/-- A key with the sign behind it is read up to the value. -/
theorem readKeySign_assignment {key : Text} (ok : IsKey key) {mark : Char} (rest : Text)
    (visible : isSpace mark = false) :
    readKeySign (key ++ " = ".toList ++ mark :: rest) = some ([key], mark :: rest) := by
  have front : (key ++ " = ".toList ++ mark :: rest).takeWhile isKeyChar = key := by
    rw [List.append_assoc, List.takeWhile_append_of_pos ok.plain]
    exact List.append_nil key
  have behind : (key ++ " = ".toList ++ mark :: rest).dropWhile isKeyChar =
      " = ".toList ++ mark :: rest := by
    rw [List.append_assoc, List.dropWhile_append_of_pos ok.plain]
    rfl
  have part : readKeyPart (key ++ " = ".toList ++ mark :: rest) =
      some (key, " = ".toList ++ mark :: rest) := by
    rw [readKeyPart, front, behind]
    cases key with
    | nil => exact absurd rfl ok.nonempty
    | cons c key => rfl
  have whole : readKey deepest (key ++ " = ".toList ++ mark :: rest) =
      some ([key], "= ".toList ++ mark :: rest) := by
    rw [deepest, readKey, part]
    rfl
  rw [readKeySign, whole]
  change some ([key], List.dropWhile isSpace (mark :: rest)) = _
  rw [List.dropWhile_cons_of_neg (by simp [visible])]

/-! ## Values -/

theorem exists_write_cons (value : Text) :
    ∃ mark rest, write value = mark :: rest ∧ (mark = doubleMark ∨ mark = singleMark) := by
  rw [write, writeAs, Form.delimiter]
  rcases formOf value with ⟨_ | _, _ | _⟩
  · exact ⟨singleMark, _, rfl, Or.inr rfl⟩
  · exact ⟨singleMark, _, rfl, Or.inr rfl⟩
  · exact ⟨doubleMark, _, rfl, Or.inl rfl⟩
  · exact ⟨doubleMark, _, rfl, Or.inl rfl⟩

theorem readValue_write (value rest : Text) :
    readValue deepest (write value ++ '\n' :: rest) = some (.text value, '\n' :: rest) := by
  have read := readText_write value rest
  obtain ⟨mark, body, written, kind⟩ := exists_write_cons value
  rw [written, List.cons_append] at read ⊢
  have quoted : (mark = doubleMark || mark = singleMark) = true := by simpa using kind
  rw [deepest, readValue, if_pos quoted, read]
  rfl

/-! ## Lines -/

/-- A value under a new key comes behind the others. -/
theorem give_new {nodes : Nodes} {key : Text} (value : Value) (new : nodes.hasKey key = false) :
    Draft.give ⟨nodes, []⟩ [key] value = some ⟨nodes.put key (.value value), []⟩ := by
  simp [Draft.give, change, putValue, new]

theorem readEntry_assignment {nodes : Nodes} {key : Text} (ok : IsKey key)
    (new : nodes.hasKey key = false) (value rest : Text) :
    readEntry ⟨nodes, []⟩ (assignment key value ++ '\n' :: rest) =
      some (⟨nodes.put key (.value (.text value)), []⟩, '\n' :: rest) := by
  obtain ⟨mark, body, written, kind⟩ := exists_write_cons value
  have visible : isSpace mark = false := by rcases kind with rfl | rfl <;> decide
  have whole : assignment key value ++ '\n' :: rest =
      key ++ " = ".toList ++ mark :: (body ++ '\n' :: rest) := by
    rw [assignment, written, List.append_assoc, List.cons_append]
  have sign := readKeySign_assignment ok (body ++ '\n' :: rest) visible
  have read := readValue_write value rest
  rw [written, List.cons_append] at read
  rw [whole]
  obtain ⟨c, key', rfl⟩ := List.exists_cons_of_ne_nil ok.nonempty
  have noTable := (ne_of_isKeyChar (ok.plain c List.mem_cons_self)).1
  rw [List.cons_append, List.cons_append] at sign ⊢
  rw [readEntry, sign]
  · simp only [Option.bind_eq_bind, Option.bind_some, read, give_new _ new, Option.pure_def]
  · intro rest' same
    exact noTable (List.cons.inj same).1
  · intro rest' same
    exact noTable (List.cons.inj same).1

/-- A line that gives a text to a new key is read, and reading goes on behind it. -/
theorem readLines_assignment {nodes : Nodes} {key : Text} (ok : IsKey key)
    (new : nodes.hasKey key = false) (value rest : Text) (fuel : Nat) :
    readLines (fuel + 1) ⟨nodes, []⟩ (assignment key value ++ '\n' :: rest) =
      readLines fuel ⟨nodes.put key (.value (.text value)), []⟩ rest := by
  have entry := readEntry_assignment ok new value rest
  obtain ⟨c, key', rfl⟩ := List.exists_cons_of_ne_nil ok.nonempty
  obtain ⟨-, noComment, noNewline, noReturn, noSpace, -⟩ :=
    ne_of_isKeyChar (ok.plain c List.mem_cons_self)
  have whole : assignment (c :: key') value ++ '\n' :: rest =
      c :: (key' ++ " = ".toList ++ write value ++ '\n' :: rest) := by
    simp [assignment]
  rw [whole] at entry ⊢
  have start : skipSpaces (c :: (key' ++ " = ".toList ++ write value ++ '\n' :: rest)) =
      c :: (key' ++ " = ".toList ++ write value ++ '\n' :: rest) := by
    rw [skipSpaces, List.dropWhile_cons_of_neg (by simp [noSpace])]
  have notVoid : isVoid (c :: (key' ++ " = ".toList ++ write value ++ '\n' :: rest)) = false := by
    rw [isVoid]
    all_goals simp [noComment, noNewline, noReturn]
  rw [readLines, start]
  simp only [notVoid, Bool.false_eq_true, if_false, entry]
  rfl

/-! ## Documents -/

/-- What is under the keys of assignments. -/
def assigned (nodes : Nodes) (fields : List (Text × Text)) : Nodes :=
  fields.foldl (fun nodes field => nodes.put field.1 (.value (.text field.2))) nodes

theorem hasKey_put (nodes : Nodes) (key other : Text) (node : Node) :
    (Keyed.put key node nodes).hasKey other = (decide (other = key) || nodes.hasKey other) := by
  by_cases same : other = key <;> simp [Keyed.hasKey, Keyed.get?_put, same]

/-- Each line takes at least one character. -/
theorem length_le_length_terminated (lines : List Text) :
    lines.length ≤ (terminated lines).length := by
  induction lines with
  | nil => exact Nat.le_refl _
  | cons line lines ih =>
      rw [terminated_cons, List.length_append, List.length_cons, List.length_cons]
      omega

theorem readLines_assignments {fields : List (Text × Text)} {nodes : Nodes} {fuel : Nat}
    (keys : ∀ field ∈ fields, IsKey field.1) (distinct : (fields.map Prod.fst).Nodup)
    (new : ∀ field ∈ fields, nodes.hasKey field.1 = false) (enough : fields.length < fuel) :
    readLines fuel ⟨nodes, []⟩
        (terminated (fields.map fun field => assignment field.1 field.2)) =
      some (assigned nodes fields) := by
  induction fields generalizing nodes fuel with
  | nil =>
      obtain ⟨fuel, rfl⟩ := Nat.exists_eq_succ_of_ne_zero (Nat.ne_of_gt enough)
      rfl
  | cons field fields ih =>
      obtain ⟨fuel, rfl⟩ := Nat.exists_eq_succ_of_ne_zero (Nat.ne_zero_of_lt enough)
      rw [List.forall_mem_cons] at keys new
      rw [List.map_cons, List.nodup_cons] at distinct
      rw [List.map_cons, terminated_cons, readLines_assignment keys.1 new.1]
      refine ih keys.2 distinct.2 (fun other member => ?_) (by simpa using enough)
      have differ : other.1 ≠ field.1 := by
        intro same
        exact distinct.1 (same ▸ List.mem_map_of_mem member)
      rw [hasKey_put, new.2 other member]
      simpa using differ

/-- **A document of assignments is read as it was written.** -/
theorem readDocument_assignments {fields : List (Text × Text)}
    (keys : ∀ field ∈ fields, IsKey field.1) (distinct : (fields.map Prod.fst).Nodup) :
    readDocument (terminated (fields.map fun field => assignment field.1 field.2)) =
      some (assigned [] fields) := by
  have unmarked : skip? [encodingMark]
      (terminated (fields.map fun field => assignment field.1 field.2)) = none := by
    cases fields with
    | nil => rfl
    | cons field fields =>
        obtain ⟨ok, -⟩ := List.forall_mem_cons.mp keys
        obtain ⟨c, key, cut⟩ := List.exists_cons_of_ne_nil ok.nonempty
        obtain ⟨-, -, -, -, -, noMark⟩ := ne_of_isKeyChar (ok.plain c (by simp [cut]))
        rw [List.map_cons, terminated_cons, assignment, cut]
        exact if_neg noMark.symm
  have enough : fields.length <
      (terminated (fields.map fun field => assignment field.1 field.2)).length + 1 := by
    have lines := length_le_length_terminated (fields.map fun field => assignment field.1 field.2)
    rw [List.length_map] at lines
    omega
  rw [readDocument, unmarked]
  exact readLines_assignments keys distinct (fun _ _ => rfl) enough

end SlideDeck.Toml
