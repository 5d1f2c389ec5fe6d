/-!
# Text as a list of characters

Every analysis of the library is a structural recursion on the characters of a
text, so a text is the list of its characters. Strings are met only where text
enters or leaves the program.

The module holds the character class of blanks, trimming, and the splitting and
joining of texts at one character.
-/

set_option autoImplicit false

namespace SlideDeck

/-- A text is the list of its characters. -/
abbrev Text := List Char

namespace Text

/-- What holds of all characters of a text is decided along the text, also where it could be decided
for all characters there are. -/
instance (priority := high) decidableForallMem (P : Char → Prop) [DecidablePred P] (s : Text) :
    Decidable (∀ c ∈ s, P c) :=
  List.decidableBAll P s

/-! ## Blanks -/

/-- The blanks are the characters with the White_Space property. -/
def isBlank (c : Char) : Bool :=
  let n := c.toNat
  (0x09 ≤ n && n ≤ 0x0D) || n == 0x20 || n == 0x85 || n == 0xA0 || n == 0x1680 ||
    (0x2000 ≤ n && n ≤ 0x200A) || n == 0x2028 || n == 0x2029 || n == 0x202F ||
    n == 0x205F || n == 0x3000

/-- Drops the blanks at the front. -/
def trimStart (s : Text) : Text := s.dropWhile isBlank

/-- Drops the blanks at the back. -/
def trimEnd : Text → Text
  | [] => []
  | c :: cs =>
    match trimEnd cs with
    | [] => if isBlank c then [] else [c]
    | d :: ds => c :: d :: ds

/-- Drops the blanks at both ends. -/
def trim (s : Text) : Text := trimEnd (trimStart s)

/-- A text without any character but blanks. -/
def isBlankText (s : Text) : Bool := s.all isBlank

/-! ## Splitting and joining -/

/-- The pieces between the occurrences of `sep`: one more than there are
occurrences. -/
def splitAt (sep : Char) : Text → List Text
  | [] => [[]]
  | c :: cs =>
    if c = sep then [] :: splitAt sep cs
    else
      match splitAt sep cs with
      | [] => [[c]]
      | piece :: pieces => (c :: piece) :: pieces

/-- The pieces with `sep` between them. -/
def join (sep : Text) : List Text → Text
  | [] => []
  | [piece] => piece
  | piece :: next :: pieces => piece ++ sep ++ join sep (next :: pieces)

/-- Splits at the first occurrence of `sep`, which belongs to neither side. -/
def splitOnce (sep : Char) : Text → Option (Text × Text)
  | [] => none
  | c :: cs =>
    if c = sep then some ([], cs)
    else (splitOnce sep cs).map fun (before, after) => (c :: before, after)

/-- The maximal runs of characters that are no blanks. -/
def words : Text → List Text
  | [] => []
  | c :: cs =>
    if isBlank c then words cs
    else
      match cs with
      | [] => [[c]]
      | d :: _ =>
        if isBlank d then [c] :: words cs
        else
          match words cs with
          | [] => [[c]]
          | word :: rest => (c :: word) :: rest

/-! ## Lines -/

/-- Drops one carriage return at the back. -/
def dropReturn : Text → Text
  | [] => []
  | ['\r'] => []
  | c :: cs => c :: dropReturn cs

/-- Turns the pieces between newlines into lines: a piece that a newline ends
loses one carriage return, and an empty last piece is no line. -/
def linesOfPieces : List Text → List Text
  | [] => []
  | [last] => if last.isEmpty then [] else [last]
  | piece :: next :: pieces => dropReturn piece :: linesOfPieces (next :: pieces)

/-- The lines of a text, without their line ends. -/
def lines (s : Text) : List Text := linesOfPieces (splitAt '\n' s)

/-- The lines with a newline between each two. -/
def unlines (ls : List Text) : Text := join ['\n'] ls

/-- Each line with a newline behind it. -/
def terminated (ls : List Text) : Text := ls.flatMap (· ++ ['\n'])

/-! ## ASCII letter case -/

/-- The text with its ASCII capitals in lower case. -/
def lowerAscii (s : Text) : Text := s.map Char.toLower

/-- Equality up to the case of ASCII letters. -/
def eqIgnoringCase (s t : Text) : Bool := lowerAscii s == lowerAscii t

/-! ## Order -/

/-- Whether a text is the same as another or comes before it, character by character in
the order of their codes. -/
def le : Text → Text → Bool
  | [], _ => true
  | _ :: _, [] => false
  | c :: s, d :: t => decide (c.toNat < d.toNat) || (c == d && le s t)

/-! ## Laws -/

theorem splitAt_ne_nil (sep : Char) (s : Text) : splitAt sep s ≠ [] := by
  cases s with
  | nil => simp [splitAt]
  | cons c cs =>
    rw [splitAt]
    split
    · simp
    · split <;> simp

/-- Joining the pieces gives the text back. -/
theorem join_splitAt (sep : Char) (s : Text) : join [sep] (splitAt sep s) = s := by
  induction s with
  | nil => rfl
  | cons c cs ih =>
    rw [splitAt]
    cases pieces : splitAt sep cs with
    | nil => exact absurd pieces (splitAt_ne_nil sep cs)
    | cons piece rest =>
      rw [pieces] at ih
      by_cases same : c = sep
      · simp [same, join, ih]
      · cases rest <;> simp_all [join]

/-- No piece holds the separator. -/
theorem not_mem_of_mem_splitAt {sep : Char} {s piece : Text} (member : piece ∈ splitAt sep s) :
    sep ∉ piece := by
  induction s generalizing piece with
  | nil => simp_all [splitAt]
  | cons c cs ih =>
    rw [splitAt] at member
    cases pieces : splitAt sep cs with
    | nil => exact absurd pieces (splitAt_ne_nil sep cs)
    | cons first rest =>
      rw [pieces] at member ih
      by_cases same : c = sep
      · grind
      · grind

/-- Any two texts can be listed in their order. -/
protected theorem le_total (s t : Text) : (le s t || le t s) = true := by
  induction s generalizing t with
  | nil => simp [le]
  | cons c s ih =>
      cases t with
      | nil => simp [le]
      | cons d t =>
          rcases Nat.lt_trichotomy c.toNat d.toNat with less | same | more
          · simp [le, less]
          · have equal : c = d := Char.toNat_inj.mp same
            simpa [le, equal] using ih t
          · simp [le, more]

protected theorem le_trans {s t u : Text} (first : le s t = true) (second : le t u = true) :
    le s u = true := by
  induction s generalizing t u with
  | nil => rfl
  | cons c s ih =>
      cases t with
      | nil => simp [le] at first
      | cons d t =>
          cases u with
          | nil => simp [le] at second
          | cons e u =>
              simp only [le, Bool.or_eq_true, decide_eq_true_eq, Bool.and_eq_true,
                beq_iff_eq] at first second ⊢
              rcases first with first | ⟨rfl, first⟩
              · rcases second with second | ⟨rfl, -⟩
                · exact Or.inl (Nat.lt_trans first second)
                · exact Or.inl first
              · rcases second with second | ⟨rfl, second⟩
                · exact Or.inl second
                · exact Or.inr ⟨rfl, ih first second⟩

end Text

end SlideDeck
