import SlideDeck.Proofs.Text.Wordwise

/-!
# Replacing literal texts

Where characters are written in a way that keeps a literal text apart from what is written for
others, it makes no difference whether the text is replaced before or behind the writing
(`KeepsLiteral.replace_flatMap`).

A table of texts is replaced one text after the other (`replaceAll`). Where no text of the table
meets another, nor what has come in the place of another, the order does not matter to a part of a
text that the table reads as a whole (`Reads`): it is replaced, or it stays, whatever stands behind
it (`replaceAll_append`).
-/

set_option autoImplicit false

namespace SlideDeck.Text

/-! ## Replacing in what is written -/

/-- A way to write characters that keeps the occurrences of a literal text: its characters are
written as themselves, and what is written for others does not begin like a part of it. -/
def KeepsLiteral (d : Char) (literal : Text) (write : Char → Text) : Prop :=
  ∀ e, write e = [e] ∨
    e ∉ d :: literal ∧ ∃ first tail, write e = first :: tail ∧ first ∉ d :: literal ∧ d ∉ tail

namespace KeepsLiteral

variable {d : Char} {literal : Text} {write : Char → Text}

theorem flatMap_eq_self (keeps : KeepsLiteral d literal write) {part : Text}
    (chars : part ⊆ d :: literal) : part.flatMap write = part := by
  induction part with
  | nil => rfl
  | cons e part ih =>
      rw [List.cons_subset] at chars
      rcases keeps e with same | ⟨absent, -⟩
      · rw [List.flatMap_cons, same, ih chars.2, List.singleton_append]
      · exact absurd chars.1 absent

theorem isPrefix (keeps : KeepsLiteral d literal write) {part s : Text}
    (chars : part ⊆ d :: literal)
    (begins : part <+: s.flatMap write) : part <+: s := by
  induction part generalizing s with
  | nil => exact List.nil_prefix
  | cons e part ih =>
      rw [List.cons_subset] at chars
      cases s with
      | nil => exact absurd (List.prefix_nil.mp begins) (List.cons_ne_nil e part)
      | cons c s =>
          rw [List.flatMap_cons] at begins
          rcases keeps c with same | ⟨-, first, tail, same, absent, -⟩
          · rw [same, List.singleton_append, List.cons_prefix_cons] at begins
            exact List.cons_prefix_cons.mpr ⟨begins.1, ih chars.2 begins.2⟩
          · rw [same, List.cons_append, List.cons_prefix_cons] at begins
            exact absurd (begins.1 ▸ chars.1) absent

/-- **Replacing commutes with writing.** -/
theorem replace_flatMap (keeps : KeepsLiteral d literal write) (replacement s : Text) :
    replace (d :: literal) (replacement.flatMap write) (s.flatMap write) =
      (replace (d :: literal) replacement s).flatMap write := by
  induction s using occurrence_induction d literal with
  | nil => rfl
  | occurs rest ih =>
      rw [List.flatMap_append, keeps.flatMap_eq_self (List.Subset.refl _), replace_append_self,
        replace_append_self, ih, List.flatMap_append]
  | other c s begins ih =>
      have other : ¬ d :: literal <+: (c :: s).flatMap write := fun begun =>
        begins (keeps.isPrefix (List.Subset.refl _) begun)
      rw [replace_cons replacement begins, List.flatMap_cons]
      rw [List.flatMap_cons] at other ⊢
      rcases keeps c with same | ⟨-, first, tail, same, -, absent⟩
      · rw [same] at other ⊢
        exact (replace_cons _ other).trans (congrArg _ ih)
      · have silent : Silent (literally (d :: literal) (replacement.flatMap write)) tail :=
          (silent_skip (avoids_of_not_mem absent)).map _
        rw [same] at other ⊢
        exact (replace_cons _ other).trans
          (congrArg (first :: ·) ((silent.substitute_append _).trans (congrArg (tail ++ ·) ih)))

end KeepsLiteral

/-! ## Replacing one text after the other -/

/-- The texts of a table replaced, one after the other. -/
def replaceAll (entries : List (Text × Text)) (s : Text) : Text :=
  entries.foldl (fun s (written, meant) => replace written meant s) s

/-- A table whose texts are apart from each other, and from what earlier ones are replaced by. -/
def Independent (entries : List (Text × Text)) : Prop :=
  (∀ entry ∈ entries, entry.1 ≠ []) ∧
    entries.Pairwise fun entry later =>
      avoids entry.1 later.1 = true ∧ avoids later.1 entry.2 = true

/-- How a table reads a part of a text: as one of its texts, or as none. -/
def Reads (entries : List (Text × Text)) (written meant : Text) : Prop :=
  (written, meant) ∈ entries ∨
    meant = written ∧ ∀ entry ∈ entries, avoids entry.1 written = true

instance (entries : List (Text × Text)) : Decidable (Independent entries) :=
  inferInstanceAs (Decidable (_ ∧ _))

instance (entries : List (Text × Text)) (written meant : Text) :
    Decidable (Reads entries written meant) :=
  inferInstanceAs (Decidable (_ ∨ _))

section ReplaceAll

variable {entries : List (Text × Text)}

theorem replace_append_of_avoids {literal s : Text} (apart : avoids literal s = true)
    (replacement t : Text) :
    replace literal replacement (s ++ t) = s ++ replace literal replacement t :=
  ((silent_skip apart).map _).substitute_append t

/-- **What a table reads** in front of a text is replaced as the table says. The induction is on the
table: an entry leaves the part alone, or puts in its place what the later ones leave alone. -/
theorem replaceAll_append (independent : Independent entries) {written meant : Text}
    (reads : Reads entries written meant) (t : Text) :
    replaceAll entries (written ++ t) = meant ++ replaceAll entries t := by
  induction entries generalizing written t with
  | nil =>
      rcases reads with member | ⟨rfl, -⟩
      · cases member
      · rfl
  | cons entry entries ih =>
      obtain ⟨nonempty, apart⟩ := independent
      rw [List.forall_mem_cons] at nonempty
      rw [List.pairwise_cons] at apart
      have later : Independent entries := ⟨nonempty.2, apart.2⟩
      have unread : avoids entry.1 written = true → Reads entries written meant →
          replaceAll (entry :: entries) (written ++ t) = meant ++
            replaceAll (entry :: entries) t := by
        intro other reads
        change replaceAll entries (replace entry.1 entry.2 (written ++ t)) = _
        rw [replace_append_of_avoids other, ih later reads]
        rfl
      rcases reads with member | ⟨rfl, avoiding⟩
      · rcases List.mem_cons.mp member with rfl | member
        · obtain ⟨d, name, rfl⟩ := List.exists_cons_of_ne_nil nonempty.1
          have stays : Reads entries meant meant :=
            .inr ⟨rfl, fun other member => (apart.1 other member).2⟩
          change replaceAll entries (replace (d :: name) meant (d :: name ++ t)) = _
          rw [replace_append_self, ih later stays]
          rfl
        · exact unread (apart.1 _ member).1 (.inl member)
      · rw [List.forall_mem_cons] at avoiding
        exact unread avoiding.1 (.inr ⟨rfl, avoiding.2⟩)

/-- A text is read character by character. -/
theorem replaceAll_flatMap_append (independent : Independent entries) {write meant : Char → Text}
    {s : Text} (each : ∀ c ∈ s, Reads entries (write c) (meant c)) (t : Text) :
    replaceAll entries (s.flatMap write ++ t) = s.flatMap meant ++ replaceAll entries t := by
  induction s with
  | nil => rfl
  | cons c s ih =>
      rw [List.forall_mem_cons] at each
      rw [List.flatMap_cons, List.append_assoc, replaceAll_append independent each.1, ih each.2,
        List.flatMap_cons, List.append_assoc]

end ReplaceAll

end SlideDeck.Text
