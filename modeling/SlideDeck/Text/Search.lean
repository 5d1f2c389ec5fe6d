import SlideDeck.Text.Basic

/-!
# Searching and substituting

A *matcher* looks at the front of a text: it answers what it found there and the
text behind it, or nothing. Searching tries a matcher at one position after the
other, from left to right. Substituting does the same and puts a replacement where
the matcher answered; it goes on behind the matched part, so matches do not
overlap.

Both are structural recursions on the text. Substituting counts down the characters
that an earlier match still covers (`substituteFrom`); `substituteFrom_eq_drop` says
that this is substituting in the text without them.
-/

set_option autoImplicit false

namespace SlideDeck.Text

/-- Looks at the front of a text: what was found there, and the text behind it. -/
abbrev Matcher (α : Type) := Text → Option (α × Text)

/-- The text behind `literal`, when the text begins with it. -/
def skip? : Text → Text → Option Text
  | [], s => some s
  | _ :: _, [] => none
  | c :: literal, d :: s => if c = d then skip? literal s else none

/-- Whether the text begins with `literal`. -/
def startsWith (literal s : Text) : Bool := literal.isPrefixOf s

/-- Whether the text ends with `literal`. -/
def endsWith (literal s : Text) : Bool := literal.isSuffixOf s

/-- Whether `literal` occurs anywhere in the text. -/
def includes (literal : Text) : Text → Bool
  | [] => literal.isEmpty
  | c :: cs => startsWith literal (c :: cs) || includes literal cs

/-- The first position at which `stop` answers, with the text before it. Every
character before it has to satisfy `allowed`. -/
def splitBefore {α : Type} (allowed : Char → Bool) (stop : Text → Option α) :
    Text → Option (Text × α)
  | [] => (stop []).map fun found => ([], found)
  | c :: cs =>
    match stop (c :: cs) with
    | some found => some ([], found)
    | none =>
      if allowed c then
        (splitBefore allowed stop cs).map fun (before, found) => (c :: before, found)
      else none

/-- The text before the first occurrence of `literal` and the text behind it. -/
def splitOnText? (literal s : Text) : Option (Text × Text) :=
  splitBefore (fun _ => true) (skip? literal) s

/-- The first answer of `look` over all positions, the end included. -/
def find? {α : Type} (look : Text → Option α) : Text → Option α
  | [] => look []
  | c :: cs => (look (c :: cs)).or (find? look cs)

/-! ## Substituting -/

/-- Substitutes behind the first `covered` characters, which an earlier match has
used up. -/
def substituteFrom (matcher : Matcher Text) : Nat → Text → Text
  | _, [] => []
  | covered + 1, _ :: cs => substituteFrom matcher covered cs
  | 0, c :: cs =>
    match matcher (c :: cs) with
    | some (replacement, rest) =>
      replacement ++ substituteFrom matcher (cs.length - rest.length) cs
    | none => c :: substituteFrom matcher 0 cs

/-- Puts the replacement of `matcher` at each of its matches, from left to right
and without overlap. A match has at least one character. -/
def substitute (matcher : Matcher Text) (s : Text) : Text := substituteFrom matcher 0 s

/-- The matches of `matcher`, from left to right and without overlap. -/
def matchesFrom {α : Type} (matcher : Matcher α) : Nat → Text → List α
  | _, [] => []
  | covered + 1, _ :: cs => matchesFrom matcher covered cs
  | 0, c :: cs =>
    match matcher (c :: cs) with
    | some (found, rest) => found :: matchesFrom matcher (cs.length - rest.length) cs
    | none => matchesFrom matcher 0 cs

/-- The matches of `matcher`, from left to right and without overlap. -/
def matchesOf {α : Type} (matcher : Matcher α) (s : Text) : List α := matchesFrom matcher 0 s

/-- Matches one literal text. -/
def literally (literal replacement : Text) : Matcher Text := fun s =>
  (skip? literal s).map fun rest => (replacement, rest)

/-- Every occurrence of `literal` replaced, from left to right. -/
def replace (literal replacement : Text) (s : Text) : Text :=
  substitute (literally literal replacement) s

/-- The pieces of the text between the matches of `separator`, starting behind
the first `covered` characters. -/
def splitFrom (separator : Text → Option Text) : Nat → Text → List Text
  | _, [] => [[]]
  | covered + 1, _ :: cs => splitFrom separator covered cs
  | 0, c :: cs =>
    match separator (c :: cs) with
    | some rest => [] :: splitFrom separator (cs.length - rest.length) cs
    | none =>
      match splitFrom separator 0 cs with
      | [] => [[c]]
      | piece :: pieces => (c :: piece) :: pieces

/-- The pieces of the text between the occurrences of `literal`. -/
def splitOnText (literal s : Text) : List Text := splitFrom (skip? literal) 0 s

/-! ## Laws -/

/-- Skipping covered characters is dropping them. -/
theorem substituteFrom_eq_drop (matcher : Matcher Text) (covered : Nat) (s : Text) :
    substituteFrom matcher covered s = substitute matcher (s.drop covered) := by
  induction s generalizing covered with
  | nil => simp [substitute, substituteFrom]
  | cons c cs ih =>
    cases covered with
    | zero => rfl
    | succ covered => simpa [substituteFrom] using ih covered

@[simp] theorem substitute_nil (matcher : Matcher Text) : substitute matcher [] = [] := rfl

/-- Where the matcher answers nothing, the character stays. -/
theorem substitute_cons_of_none {matcher : Matcher Text} {c : Char} {cs : Text}
    (quiet : matcher (c :: cs) = none) :
    substitute matcher (c :: cs) = c :: substitute matcher cs := by
  simp [substitute, substituteFrom, quiet]

/-- Where the matcher answers, its replacement stands and substituting goes on
behind the match. -/
theorem substitute_cons_of_some {matcher : Matcher Text} {c : Char} {cs replacement rest : Text}
    (found : matcher (c :: cs) = some (replacement, rest)) (isRest : rest <:+ cs) :
    substitute matcher (c :: cs) = replacement ++ substitute matcher rest := by
  obtain ⟨used, rfl⟩ := isRest
  have start : substitute matcher (c :: (used ++ rest)) =
      replacement ++
        substituteFrom matcher ((used ++ rest).length - rest.length) (used ++ rest) := by
    simp only [substitute, substituteFrom, found]
  rw [start, substituteFrom_eq_drop]
  simp

theorem skip?_eq_some_iff {literal s rest : Text} :
    skip? literal s = some rest ↔ s = literal ++ rest := by
  induction literal generalizing s with
  | nil => simp [skip?, eq_comm]
  | cons c cs ih =>
    cases s with
    | nil => simp [skip?]
    | cons d ds =>
      by_cases same : c = d
      · simpa [skip?, same] using ih
      · simp [skip?, same, Ne.symm same]

theorem startsWith_iff {literal s : Text} : startsWith literal s = true ↔ literal <+: s := by
  simp [startsWith]

end SlideDeck.Text
