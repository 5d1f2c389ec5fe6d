import SlideDeck.Proofs.Inline.Formatted

/-!
# What a typesetting engine meets in formatted text

A formatted line goes into the document as it is, so it must hold nothing that the typesetting
engine could take for a command of the author. `isSafe` reads a text from left to right: each
backslash begins one of the few texts that formatting writes behind one (`commandStarts`), and
what else has a meaning of its own stands behind a backslash only.

Formatted text is made of tokens, and reading goes on behind each of them as it does at the
front of a text (`isSafeFrom_token`). So every formatted line is safe, and its braces are
balanced (`isSafe_format`).
-/

set_option autoImplicit false

namespace SlideDeck.Inline

open SlideDeck SlideDeck.Text SlideDeck.Latex

/-! ## Reading from left to right -/

/-- The characters, braces apart, that have a meaning of their own where no backslash stands
in front of them. -/
def activeChars : Text := "_&%$#~^".toList

/-- What a backslash may begin: an escaped character, a command that stands for a character, or
a command with text in another style as its argument. -/
def commandStarts : List Text := [
  "\\_".toList, "\\&".toList, "\\%".toList, "\\$".toList, "\\#".toList, "\\\x7b".toList,
  "\\\x7d".toList, "\\textbackslash\x7b\x7d".toList, "\\textasciitilde\x7b\x7d".toList,
  "\\textasciicircum\x7b\x7d".toList, "\\textbf\x7b".toList, "\\textit\x7b".toList,
  "\\texttt\x7b".toList]

/-- Whether a text that begins escaped or not is safe behind its beginning: a backslash that is
not escaped begins what it may begin, and no active character is met unescaped. -/
def isSafeFrom : Bool → Text → Bool
  | _, [] => true
  | escaped, c :: s =>
    (escaped ||
      if c = '\\' then commandStarts.any fun start => startsWith start (c :: s)
      else !activeChars.contains c) &&
    isSafeFrom (escapesNext escaped c) s

/-- Whether a text is safe, read from left to right. -/
def isSafe (s : Text) : Bool := isSafeFrom false s

/-! ## Reading tokens -/

/-- Characters that are neither backslashes nor active are passed over. -/
theorem isSafeFrom_passive {t : Text} (passive : ∀ c ∈ t, c ≠ '\\' ∧ c ∉ activeChars) (s : Text) :
    isSafeFrom false (t ++ s) = isSafeFrom false s := by
  induction t with
  | nil => rfl
  | cons c t ih =>
      rw [List.forall_mem_cons] at passive
      obtain ⟨⟨notSlash, notActive⟩, later⟩ := passive
      have next : escapesNext false c = false := by simp [escapesNext, notSlash]
      rw [List.cons_append, isSafeFrom, if_neg notSlash, next, ih later]
      simp [notActive]

/-- What a backslash may begin is passed over as a whole. -/
theorem isSafeFrom_start {start : Text} (member : start ∈ commandStarts) (s : Text) :
    isSafeFrom false (start ++ s) = isSafeFrom false s := by
  have shapes : ∀ start ∈ commandStarts, start.head? = some '\\' ∧ start.tail ≠ [] ∧
      start.tail.head? ≠ some '\\' ∧ ∀ d ∈ start.tail.tail, d ≠ '\\' ∧ d ∉ activeChars := by decide
  obtain ⟨slash, more, other, passive⟩ := shapes start member
  obtain ⟨rest, rfl⟩ := List.head?_eq_some_iff.mp slash
  obtain ⟨c, tail, rfl⟩ := List.exists_cons_of_ne_nil (show rest ≠ [] from more)
  have notSlash : c ≠ '\\' := fun same => other (congrArg some same)
  have later : ∀ d ∈ tail, d ≠ '\\' ∧ d ∉ activeChars := passive
  have begins :
      (commandStarts.any fun start => startsWith start ('\\' :: (c :: tail ++ s))) = true :=
    List.any_eq_true.mpr ⟨_, member, startsWith_iff.mpr (List.prefix_append _ s)⟩
  have escaped : escapesNext false '\\' = true := rfl
  have next : escapesNext true c = false := by simp [escapesNext]
  rw [List.cons_append, isSafeFrom, if_pos rfl, begins, escaped, List.cons_append, isSafeFrom, next,
    isSafeFrom_passive later]
  rfl

/-- **Reading goes on behind a token** as at the front of a text. -/
theorem isSafeFrom_token {depth last : Nat} {t : Text} (token : IsToken depth t last) (s : Text) :
    isSafeFrom false (t ++ s) = isSafeFrom false s := by
  cases token with
  | @plain _ c plain =>
      refine isSafeFrom_passive (fun d member => ?_) s
      obtain rfl := List.mem_singleton.mp member
      constructor
      · rintro rfl
        exact absurd plain (by decide)
      · intro active
        have special : ∀ c ∈ activeChars, isPlain c = false := by decide
        rw [special d active] at plain
        cases plain
  | @escaped _ c escaped =>
      have each : ∀ c ∈ "_&%$#\x7b\x7d".toList, ['\\', c] ∈ commandStarts := by decide
      refine isSafeFrom_start (each c ?_) s
      simpa [backslashEscaped, or_assoc] using escaped
  | @symbol _ name member =>
      have each : ∀ name ∈ symbolNames, symbol name ∈ commandStarts := by decide
      exact isSafeFrom_start (each name member) s
  | @opening _ name member =>
      have each : ∀ name ∈ styleNames, '\\' :: name ++ ['\x7b'] ∈ commandStarts := by decide
      exact isSafeFrom_start (each name member) s
  | closing => exact isSafeFrom_passive (by decide) s

theorem Formatted.isSafe {depth last : Nat} {s : Text} (formatted : Formatted depth s last) :
    isSafe s = true := by
  induction formatted with
  | nil => rfl
  | token token _ ih =>
      rw [Inline.isSafe, isSafeFrom_token token]
      exact ih

/-! ## The main result -/

/-- **Formatted text is safe,** whatever the text was: read from left to right, every backslash
begins an escaped character, a command that stands for a character or the argument of a style; no
active character is met unescaped; and each unescaped brace has its partner. -/
theorem isSafe_format (s : Text) :
    isSafe (format s) = true ∧ Balanced (bracesOf (format s)) :=
  ⟨(formatted_format s).isSafe, (tidy_format s).depth⟩

/-- Bold and italic spans may cross; their braces do not. -/
example : format "**a *b** c*".toList = "\\textbf\x7ba \\textit\x7bb\x7d c\x7d".toList := by
  decide +kernel

end SlideDeck.Inline
