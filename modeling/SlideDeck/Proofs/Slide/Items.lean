import Mathlib.Data.List.Chain
import SlideDeck.Proofs.Slide.Fence
import SlideDeck.Proofs.Slide.Segments

/-!
# Items of a content

A line of a content is an item if it stands between no fences and in no table and matches the
pattern of one of the two kinds of lists (`itemsOf`). The writer keeps an open list until a line
comes that is no item of its kind, and then writes it as one environment. So one line after the
other the items that are read on the page are those of the content, in order
(`Places.exists_places`): an item is in the environment of the item before just if it has the same
kind and stands on the next line (`Follows`).

From this it follows for any two items that they share an environment just if all lines from one to
the other are items of the same kind (`shared_iff`). Together with the segments of the blocks this
describes the body of a slide (`exists_wellFormed`). The segments are not only a way to write the
body down: where no code ends its own listing, they are what is found in it
(`WellFormed.withoutListings_body`).
-/

set_option autoImplicit false

namespace SlideDeck.Slide

open SlideDeck SlideDeck.Text SlideDeck.Latex SlideDeck.Markdown SlideDeck.Lint

/-! ## Items -/

/-- An item of a content: the position of its line, the kind of its marker and its text. -/
structure Item where
  position : Nat
  kind : ListKind
  text : Text

/-- The kind and the text of an item, if the line is in no table and has the marker of a kind. -/
def item? (line : Text) : Option (ListKind × Text) :=
  if Table.isRow line then none
  else
    match bulleted? line with
    | some text => some (.bulleted, text)
    | none => (numbered? line).map fun text => (.numbered, text)

/-- The items of the lines from a position on, where `inside` tells whether the first is between
fences. -/
def itemsFrom (inside : Bool) (position : Nat) : List Text → List Item
  | [] => []
  | line :: rest =>
    let later := itemsFrom (insideAfter inside line) (position + 1) rest
    if inside then later
    else
      match item? line with
      | some (kind, text) => ⟨position, kind, text⟩ :: later
      | none => later

/-- The items of a content. -/
def itemsOf (content : List Text) : List Item := itemsFrom false 0 content

/-- Every line from one item to another is an item of the same kind. -/
def Joined (content : List Text) (first last : Item) : Prop :=
  ∀ position, first.position ≤ position → position ≤ last.position →
    ∃ item ∈ itemsOf content, item.position = position ∧ item.kind = first.kind

/-- A line that begins with neither marker has none. -/
theorem item?_eq_none {line : Text} {c : Char} {s : Text} (start : trimStart line = c :: s)
    (other : c ≠ '-' ∧ c ≠ '*' ∧ isDecimalDigit c = false) : item? line = none := by
  obtain ⟨hyphen, asterisk, digit⟩ := other
  have noBullet : bulleted? line = none := by simp [bulleted?, start, hyphen, asterisk]
  have noNumber : numbered? line = none := by simp [numbered?, start, digit]
  rw [item?, noBullet, noNumber]
  exact ite_self _

theorem item?_of_isFence {line : Text} (fence : isFence line = true) : item? line = none := by
  obtain ⟨tag, found⟩ := Option.isSome_iff_exists.mp fence
  have trimmed : trim line = fenceMark ++ tag := skip?_eq_some_iff.mp found
  have begins : fenceMark ++ tag <+: trimStart line := trimmed ▸ trimEnd_isPrefix _
  obtain ⟨rest, whole⟩ := begins
  exact item?_eq_none whole.symm (by decide)

/-- The writer takes the same lines for items. -/
theorem kindOf_eq_item_iff {line : Text} {kind : ListKind} {text : Text} :
    LineKind.of line = .item kind text ↔ item? line = some (kind, text) := by
  have running : ∀ s, LineKind.ofText s ≠ .item kind text := by
    intro s same
    rw [LineKind.ofText] at same
    repeat' split at same
    all_goals cases same
  rw [LineKind.of]
  split
  · next tag found =>
      have fence : isFence line = true := Option.isSome_of_eq_some found
      rw [item?_of_isFence fence]
      simp
  · rw [item?]
    split
    · split
      · simp
      · simp
    · split
      · next blank =>
          have empty : trimStart line = [] :=
            List.dropWhile_eq_nil_iff.mpr (List.all_eq_true.mp blank)
          simp [bulleted?, numbered?, empty]
      · cases bulleted? line with
        | some bullet => simp
        | none =>
            cases numbered? line with
            | some number => simp
            | none => simp [running]

/-! ## Shared environments -/

/-- An item on an earlier line, in an environment that has not begun later. -/
structure Before (first next : Item × Nat) : Prop where
  above : first.1.position < next.1.position
  grows : first.2 ≤ next.2

/-- What an item and the number of its environment have to do with those of the item before. -/
structure Follows (first next : Item × Nat) : Prop extends Before first next where
  shared : first.2 = next.2 ↔ next.1.position = first.1.position + 1 ∧ next.1.kind = first.1.kind

/-- Items that do not stand side by side with the same kind, in different environments. -/
theorem Follows.of_lt {first next : Item × Nat} (above : first.1.position < next.1.position)
    (begun : first.2 < next.2)
    (apart : ¬ (next.1.position = first.1.position + 1 ∧ next.1.kind = first.1.kind)) :
    Follows first next :=
  ⟨⟨above, Nat.le_of_lt begun⟩, iff_of_false (Nat.ne_of_lt begun) apart⟩

instance : Trans Before Before Before :=
  ⟨fun first second => ⟨first.above.trans second.above, first.grows.trans second.grows⟩⟩

/-- Whether an item of the kind stands at the position. -/
def HasItem (placed : List (Item × Nat)) (position : Nat) (kind : ListKind) : Prop :=
  ∃ item ∈ placed, item.1.position = position ∧ item.1.kind = kind

section Shared

variable {placed : List (Item × Nat)} {first last : Item × Nat}

theorem hasItem_cons {position : Nat} (beyond : first.1.position < position) (kind : ListKind) :
    HasItem (first :: placed) position kind ↔ HasItem placed position kind := by
  have other : ¬ (first.1.position = position ∧ first.1.kind = kind) := fun both =>
    Nat.ne_of_lt beyond both.1
  rw [HasItem, List.exists_mem_cons_iff, or_iff_right other, HasItem]

theorem pairwise_before (chain : placed.IsChain Follows) : placed.Pairwise Before :=
  List.isChain_iff_pairwise.mp (chain.imp fun _ _ follows => follows.toBefore)

/-- An item shares the environment of the next just if that stands on the next line with the same
kind. -/
theorem Follows.shared_iff_hasItem {head next : Item × Nat} (follows : Follows head next)
    (chain : (next :: placed).IsChain Follows) :
    head.2 = next.2 ↔ HasItem (next :: placed) (head.1.position + 1) head.1.kind := by
  rw [follows.shared]
  refine ⟨fun adjacent => ⟨next, List.mem_cons_self, adjacent⟩, ?_⟩
  rintro ⟨item, member, position, kind⟩
  rcases List.mem_cons.mp member with rfl | member
  · exact ⟨position, kind⟩
  · have above := follows.above
    have below := ((List.pairwise_cons.mp (pairwise_before chain)).1 item member).above
    omega

/-- Whether an item of the kind stands on every line from one item to another. -/
def Linked (placed : List (Item × Nat)) (first last : Item × Nat) : Prop :=
  ∀ position, first.1.position ≤ position → position ≤ last.1.position →
    HasItem placed position first.1.kind

/-- The first item shares the environment of a later one just if the next does, and is linked to
it. -/
theorem shared_head {head next : Item × Nat} (chain : (head :: next :: placed).IsChain Follows)
    (inLast : last ∈ next :: placed)
    (onward : next.2 = last.2 ↔ Linked (next :: placed) next last) :
    head.2 = last.2 ↔ Linked (head :: next :: placed) head last := by
  obtain ⟨follows, later⟩ := List.isChain_cons_cons.mp chain
  have above := follows.above
  have strictly := ((List.pairwise_cons.mp (pairwise_before chain)).1 last inLast).above
  constructor
  · intro same position upper lower
    have grows : next.2 ≤ last.2 := by
      rcases List.mem_cons.mp inLast with rfl | member
      · exact Nat.le_refl _
      · exact ((List.pairwise_cons.mp (pairwise_before later)).1 last member).grows
    -- the number of the next environment is between two that are the same
    have equal : head.2 = next.2 := Nat.le_antisymm follows.grows (same ▸ grows)
    obtain ⟨adjacent, kind⟩ := follows.shared.mp equal
    rcases Nat.eq_or_lt_of_le upper with rfl | beyond
    · exact ⟨head, List.mem_cons_self, rfl, rfl⟩
    · rw [hasItem_cons beyond, ← kind]
      exact onward.mp (equal ▸ same) position (by omega) lower
  · intro linked
    have here := linked (head.1.position + 1) (Nat.le_succ _) strictly
    have equal :=
      (follows.shared_iff_hasItem later).mpr ((hasItem_cons (Nat.lt_succ_self _) _).mp here)
    rw [equal]
    refine onward.mpr fun position upper lower => ?_
    rw [(follows.shared.mp equal).2]
    exact (hasItem_cons (by omega) _).mp (linked position (by omega) lower)

/-- **Two items share an environment just if no other line stands between them.** -/
theorem shared_iff (chain : placed.IsChain Follows) (isFirst : first ∈ placed)
    (isLast : last ∈ placed)
    (ordered : first.1.position ≤ last.1.position) :
    first.2 = last.2 ↔ Linked placed first last := by
  induction placed generalizing first with
  | nil => cases isFirst
  | cons head rest ih =>
      have behind := (List.pairwise_cons.mp (pairwise_before chain)).1
      have later := (List.isChain_cons.mp chain).2
      rcases List.mem_cons.mp isFirst with rfl | inFirst
      · rcases List.mem_cons.mp isLast with rfl | inLast
        · refine ⟨fun _ position upper lower => ?_, fun _ => rfl⟩
          exact ⟨last, List.mem_cons_self, Nat.le_antisymm upper lower, rfl⟩
        · cases rest with
          | nil => cases inLast
          | cons next rest =>
              have between : next.1.position ≤ last.1.position := by
                rcases List.mem_cons.mp inLast with rfl | member
                · exact Nat.le_refl _
                · have strictly := (List.pairwise_cons.mp (pairwise_before later)).1 last member
                  exact Nat.le_of_lt strictly.above
              exact shared_head chain inLast (ih later List.mem_cons_self inLast between)
      · rcases List.mem_cons.mp isLast with rfl | inLast
        · exact absurd ordered (Nat.not_le_of_lt (behind first inFirst).above)
        · rw [ih later inFirst inLast ordered]
          exact forall_congr' fun position => imp_congr_right fun upper =>
            imp_congr_right fun _ =>
              (hasItem_cons ((behind first inFirst).above.trans_le upper) _).symm

end Shared

/-! ## One line -/

namespace Opened

variable {opened : Opened} {line : Text}

/-- The list that is open, if one is. -/
def lists : Opened → List Block
  | .list kind items => [.list kind items]
  | _ => []

/-- Whether a list is open. -/
def isList : Opened → Bool
  | .list .. => true
  | _ => false

/-- Blocks of which the first is the list that is open, if one is, and no other is a list. -/
def Ends (opened : Opened) (done : List Block) : Prop :=
  ∃ others, (∀ block ∈ others, block.isList = false) ∧ done = opened.lists ++ others

theorem ends_blocks (opened : Opened) : opened.Ends opened.blocks := by
  cases opened with
  | nothing | list => exact ⟨[], nofun, rfl⟩
  | table | code => exact ⟨[_], List.forall_mem_singleton.mpr rfl, rfl⟩

theorem Ends.concat {done : List Block} (ends : opened.Ends done) {last : Block}
    (noList : last.isList = false) : opened.Ends (done ++ [last]) := by
  obtain ⟨others, each, rfl⟩ := ends
  refine ⟨others ++ [last], ?_, List.append_assoc ..⟩
  exact List.forall_mem_append.mpr ⟨each, List.forall_mem_singleton.mpr noList⟩

/-- A line that is no item ends the open list, and none is open behind it. -/
theorem ends_step (noItem : opened.isCode = false → item? line = none) :
    opened.Ends (opened.step line).1 ∧ (opened.step line).2.isList = false := by
  have table : ∀ rows, (Opened.table rows).Ends [] := fun _ => ⟨[], nofun, rfl⟩
  cases outside : opened.isCode with
  | true =>
      cases opened with
      | code tag lines =>
          rw [step]
          split
          · exact ⟨⟨[_], List.forall_mem_singleton.mpr rfl, rfl⟩, rfl⟩
          · exact ⟨⟨[], nofun, rfl⟩, rfl⟩
      | _ => cases outside
  | false =>
      rw [step_of_not_isCode outside]
      cases kind : LineKind.of line with
      | item list text =>
          rw [kindOf_eq_item_iff, noItem outside] at kind
          cases kind
      | fence | blank => exact ⟨opened.ends_blocks, rfl⟩
      | minorHeading | majorHeading | quote | paragraph =>
          exact ⟨opened.ends_blocks.concat rfl, rfl⟩
      | separator | row =>
          cases opened with
          | table rows => exact ⟨table rows, rfl⟩
          | _ => exact ⟨Opened.ends_blocks _, rfl⟩

/-- An item goes on with the open list if that has its kind, and otherwise ends what is open and
begins a list. -/
theorem step_of_item {kind : ListKind} {text : Text} (outside : opened.isCode = false)
    (found : item? line = some (kind, text)) :
    (∃ items, opened = .list kind items ∧
        opened.step line = ([], .list kind (items ++ [text]))) ∨
      (∀ items, opened ≠ .list kind items) ∧
        opened.step line = (opened.blocks, .list kind [text]) := by
  rw [step_of_not_isCode outside, kindOf_eq_item_iff.mpr found]
  cases opened with
  | list openKind items =>
      by_cases same : openKind = kind
      · subst same
        exact .inl ⟨items, rfl, if_pos rfl⟩
      · refine .inr ⟨?_, if_neg same⟩
        rintro others ⟨⟩
        exact same rfl
  | code => cases outside
  | _ => exact .inr ⟨nofun, rfl⟩

end Opened

/-! ## Reading -/

/-- The lines of blocks outside of listing bodies. -/
def outsideOf (blocks : List Block) : List Text :=
  (blocks.flatMap Block.segments).flatMap Segment.outside

/-- Blocks whose texts are single lines. -/
def Lined (blocks : List Block) : Prop := ∀ block ∈ blocks, ∀ text ∈ block.texts, '\n' ∉ text

section Reading

variable {blocks : List Block} {opened : Opened}

theorem outsideOf_cons (block : Block) (blocks : List Block) :
    outsideOf (block :: blocks) = block.segments.flatMap Segment.outside ++ outsideOf blocks := by
  rw [outsideOf, List.flatMap_cons, List.flatMap_append, outsideOf]

theorem outsideOf_append (front back : List Block) :
    outsideOf (front ++ back) = outsideOf front ++ outsideOf back := by
  rw [outsideOf, List.flatMap_append, List.flatMap_append, outsideOf, outsideOf]

/-- A block in front of lines. -/
theorem itemLines_block {block : Block} (oneLine : ∀ text ∈ block.texts, '\n' ∉ text)
    (nest : Nest) :
    ∃ n, (∀ ls, itemLines nest (block.segments.flatMap Segment.outside ++ ls) =
        block.placedLines nest.begun ++ itemLines { nest with begun := nest.begun + n } ls) ∧
      (block.isList = true → 0 < n) := by
  obtain ⟨n, behind, grows⟩ := exists_foldl_behind oneLine nest
  refine ⟨n, fun ls => ?_, grows⟩
  rw [itemLines_append, itemLines_segments oneLine, behind]

/-- Blocks without lists have no items. -/
theorem itemLines_others (lined : Lined blocks) (noList : ∀ block ∈ blocks, block.isList = false)
    (nest : Nest) :
    ∃ n, ∀ ls, itemLines nest (outsideOf blocks ++ ls) =
      itemLines { nest with begun := nest.begun + n } ls := by
  induction blocks generalizing nest with
  | nil => exact ⟨0, fun ls => rfl⟩
  | cons block blocks ih =>
      rw [Lined, List.forall_mem_cons] at lined
      rw [List.forall_mem_cons] at noList
      obtain ⟨m, first, -⟩ := itemLines_block lined.1 nest
      obtain ⟨n, rest⟩ := ih lined.2 noList.2 { nest with begun := nest.begun + m }
      have empty : block.placedLines nest.begun = [] := by
        cases block with
        | list => cases noList.1
        | _ => rfl
      refine ⟨m + n, fun ls => ?_⟩
      rw [outsideOf_cons, List.append_assoc, first, empty, List.nil_append, rest, Nat.add_assoc]

/-- The lines with the items of the open list, if the next environment has the number. -/
def Opened.placedLines (number : Nat) : Opened → List (Text × Option (Text × Nat))
  | .list kind items => items.map (placedLine kind number)
  | _ => []

/-- What a line completes holds the items of the open list. -/
theorem Opened.Ends.itemLines {done : List Block} (ends : opened.Ends done) (lined : Lined done)
    (nest : Nest) :
    ∃ n, (∀ ls, itemLines nest (outsideOf done ++ ls) = opened.placedLines nest.begun ++
        Slide.itemLines { nest with begun := nest.begun + n } ls) ∧
      (opened.isList = true → 0 < n) := by
  obtain ⟨others, noList, rfl⟩ := ends
  have later : Lined others := fun block member => lined block (List.mem_append_right _ member)
  cases opened with
  | list kind items =>
      obtain ⟨m, begins, grows⟩ := itemLines_block (lined _ List.mem_cons_self) nest
      obtain ⟨n, same⟩ := itemLines_others later noList { nest with begun := nest.begun + m }
      refine ⟨m + n, fun ls => ?_, fun _ => Nat.add_pos_left (grows rfl) n⟩
      rw [outsideOf_append, Opened.lists, outsideOf_cons, List.append_assoc,
        List.append_assoc, begins]
      refine congrArg (_ ++ ·) ((same ls).trans ?_)
      rw [Nat.add_assoc]
  | nothing | table | code =>
      obtain ⟨n, same⟩ := itemLines_others later noList nest
      exact ⟨n, same, nofun⟩

end Reading

/-! ## One line after the other -/

/-- The line on the page of an item that is in the environment with a number. -/
def lineOf (placed : Item × Nat) : Text × Option (Text × Nat) :=
  placedLine placed.1.kind placed.2 placed.1.text

/-- What is known of an item before a position, when `begun` environments have begun before what is
open: it is the last of the open list, or further back in an environment of its own. -/
def Opened.Trails (begun position : Nat) (last : Item × Nat) : Opened → Prop
  | .list kind _ => last.1.position + 1 = position ∧ last.1.kind = kind ∧ last.2 = begun
  | _ => last.1.position + 1 < position ∧ last.2 < begun

/-- The items of lines from a position on, with the numbers of the environments in which they are
read on the page behind those of the open list. -/
structure Places (opened : Opened) (nest : Nest) (position : Nat) (ls : List Text)
    (placed : List (Item × Nat)) : Prop where
  items : placed.map Prod.fst = itemsFrom opened.isCode position ls
  lines : itemLines nest (outsideOf (blocksFrom opened ls)) =
    opened.placedLines nest.begun ++ placed.map lineOf
  chain : placed.IsChain Follows
  first : ∀ last, opened.Trails nest.begun position last → ∀ next ∈ placed.head?, Follows last next

namespace Places

variable {opened next : Opened} {done : List Block} {nest : Nest} {position n : Nat} {line : Text}
  {ls : List Text} {placed : List (Item × Nat)}

theorem blocksFrom_cons (step : opened.step line = (done, next)) (ls : List Text) :
    blocksFrom opened (line :: ls) = done ++ blocksFrom next ls := by
  rw [blocksFrom, step]

/-- A line that is no item ends the open list. -/
theorem pass (step : opened.step line = (done, next)) (noList : next.isList = false)
    (noItem : opened.isCode = false → item? line = none)
    (read : ∀ ls, itemLines nest (outsideOf done ++ ls) = opened.placedLines nest.begun ++
      itemLines { nest with begun := nest.begun + n } ls)
    (grows : opened.isList = true → 0 < n)
    (later : Places next { nest with begun := nest.begun + n } (position + 1) ls placed) :
    Places opened nest position (line :: ls) placed where
  items := by
    have inside := opened.isCode_step line
    rw [step] at inside
    rw [later.items, inside, itemsFrom]
    cases isCode : opened.isCode with
    | true => rfl
    | false => rw [noItem isCode]; rfl
  lines := by
    have empty : next.placedLines (nest.begun + n) = [] := by
      cases next with
      | list => cases noList
      | _ => rfl
    rw [blocksFrom_cons step, outsideOf_append, read, later.lines, empty, List.nil_append]
  chain := later.chain
  first last trails := by
    apply later.first
    have behind : last.1.position + 1 < position + 1 ∧ last.2 < nest.begun + n := by
      cases opened with
      | list kind items =>
          obtain ⟨adjacent, -, same⟩ := trails
          have more := grows rfl
          omega
      | nothing | table | code =>
          obtain ⟨upper, before⟩ := trails
          omega
    cases next with
    | list => cases noList
    | _ => exact behind

/-- An item of the kind of the open list goes on with it. -/
theorem goOn {kind : ListKind} {items : List Text} {text : Text}
    (found : item? line = some (kind, text))
    (step : (Opened.list kind items).step line = ([], .list kind (items ++ [text])))
    (later : Places (.list kind (items ++ [text])) nest (position + 1) ls placed) :
    Places (.list kind items) nest position (line :: ls)
      ((⟨position, kind, text⟩, nest.begun) :: placed) where
  items := by
    have inside := (Opened.list kind items).isCode_step line
    rw [step] at inside
    rw [List.map_cons, later.items, inside, itemsFrom, found]
    rfl
  lines := by
    rw [blocksFrom_cons step, List.nil_append, later.lines]
    simp [Opened.placedLines, lineOf]
  chain := List.isChain_cons.mpr ⟨later.first _ ⟨rfl, rfl, rfl⟩, later.chain⟩
  first last trails next member := by
    obtain rfl : _ = next := Option.some.inj member
    obtain ⟨adjacent, kind, same⟩ := trails
    refine ⟨⟨by simp; omega, by simp [same]⟩, ?_⟩
    simp [adjacent, kind, same]

/-- An item begins a list where none of its kind is open. -/
theorem begin {kind : ListKind} {text : Text} (found : item? line = some (kind, text))
    (outside : opened.isCode = false) (other : ∀ items, opened ≠ .list kind items)
    (step : opened.step line = (done, .list kind [text]))
    (read : ∀ ls, itemLines nest (outsideOf done ++ ls) = opened.placedLines nest.begun ++
      itemLines { nest with begun := nest.begun + n } ls)
    (grows : opened.isList = true → 0 < n)
    (later : Places (.list kind [text]) { nest with begun := nest.begun + n }
      (position + 1) ls placed) :
    Places opened nest position (line :: ls)
      ((⟨position, kind, text⟩, nest.begun + n) :: placed) where
  items := by
    have inside := opened.isCode_step line
    rw [step] at inside
    rw [List.map_cons, later.items, inside, itemsFrom, outside, found]
    rfl
  lines := by
    rw [blocksFrom_cons step, outsideOf_append, read, later.lines]
    rfl
  chain := List.isChain_cons.mpr ⟨later.first _ ⟨rfl, rfl, rfl⟩, later.chain⟩
  first last trails next member := by
    obtain rfl : _ = next := Option.some.inj member
    cases opened with
    | list openKind items =>
        obtain ⟨adjacent, same, number⟩ := trails
        have differ : openKind ≠ kind := by
          rintro rfl
          exact other items rfl
        have more := grows rfl
        refine .of_lt (Nat.lt_of_succ_le (Nat.le_of_eq adjacent)) ?_ fun both => ?_
        · exact number ▸ Nat.lt_add_of_pos_right more
        · exact differ (same.symm.trans both.2.symm)
    | nothing | table | code =>
        obtain ⟨upper, before⟩ := trails
        refine .of_lt (Nat.lt_of_succ_lt upper) (Nat.lt_add_right n before) fun both => ?_
        exact Nat.ne_of_gt upper both.1

/-- **The items on the page are those of the content, in order.** -/
theorem exists_places {opened : Opened} (lined : Lined (blocksFrom opened ls)) (nest : Nest)
    (position : Nat) : ∃ placed, Places opened nest position ls placed := by
  induction ls generalizing opened nest position with
  | nil =>
      obtain ⟨n, read, -⟩ := opened.ends_blocks.itemLines lined nest
      refine ⟨[], rfl, ?_, .nil, fun _ _ _ member => nomatch member⟩
      have whole := read []
      rwa [List.append_nil] at whole
  | cons line ls ih =>
      obtain ⟨done, next, step⟩ : ∃ done next, opened.step line = (done, next) := ⟨_, _, rfl⟩
      rw [blocksFrom_cons step] at lined
      have linedDone : Lined done := fun block member => lined block (List.mem_append_left _ member)
      have linedRest : Lined (blocksFrom next ls) := fun block member =>
        lined block (List.mem_append_right _ member)
      by_cases noItem : opened.isCode = false → item? line = none
      · obtain ⟨ends, noList⟩ := Opened.ends_step noItem
        rw [step] at ends noList
        obtain ⟨n, read, grows⟩ := ends.itemLines linedDone nest
        obtain ⟨placed, later⟩ := ih linedRest { nest with begun := nest.begun + n } (position + 1)
        exact ⟨placed, .pass step noList noItem read grows later⟩
      · obtain ⟨outside, isItem⟩ := Classical.not_imp.mp noItem
        obtain ⟨⟨kind, text⟩, found⟩ := Option.ne_none_iff_exists'.mp isItem
        rcases Opened.step_of_item outside found with ⟨items, rfl, goesOn⟩ | ⟨other, begins⟩
        · rw [step] at goesOn
          obtain ⟨rfl, rfl⟩ := Prod.mk.inj goesOn
          obtain ⟨placed, later⟩ := ih linedRest nest (position + 1)
          exact ⟨_, .goOn found step later⟩
        · rw [step] at begins
          obtain ⟨rfl, rfl⟩ := Prod.mk.inj begins
          obtain ⟨n, read, grows⟩ := opened.ends_blocks.itemLines linedDone nest
          obtain ⟨placed, later⟩ :=
            ih linedRest { nest with begun := nest.begun + n } (position + 1)
          exact ⟨_, .begin found outside other step read grows later⟩

end Places

/-! ## Bodies -/

/-- What the segments of a body have to do with its content. -/
structure WellFormed (content : List Text) (segments : List Segment) : Prop where
  /-- The segments are the body, one line after the other. -/
  lines : body content = unlines (linesOf segments) ∧ SingleLines segments
  /-- The listings among them are the code of the content. -/
  listings : segments.filterMap Segment.listing? = (blocksOf content).filterMap Block.listing?
  /-- Outside of these the environments are nested. -/
  nested : WellNested ((segments.flatMap Segment.outside).flatMap environmentEnds)
  /-- The lines with items are those of the content, each in an environment of its kind, and two are
  in the same just if all lines of the content from one to the other are items of the same kind. -/
  items : ∃ placed : List (Item × Nat), placed.map Prod.fst = itemsOf content ∧
    itemLines {} (segments.flatMap Segment.outside) =
      placed.map (fun pair => ("\\item ".toList ++ Inline.format pair.1.text,
        some (pair.1.kind.environment, pair.2))) ∧
    ∀ first ∈ placed, ∀ last ∈ placed, first.1.position ≤ last.1.position →
      (first.2 = last.2 ↔ Joined content first.1 last.1)

section Body

variable {content : List Text} (oneLine : ∀ line ∈ content, '\n' ∉ line)

include oneLine

/-- The body of a slide as segments, of which trimming has kept those that say something. -/
theorem exists_kept : ∃ kept, Firm.Kept ((blocksOf content).flatMap Block.segments) kept ∧
    (body content = unlines (linesOf kept) ∧ SingleLines kept) ∧
    kept.filterMap Segment.listing? = (blocksOf content).filterMap Block.listing? := by
  have code : ∀ line ∈ fencedLines content, '\n' ∉ line := fun line member =>
    oneLine line (mem_of_mem_fencedFrom member)
  have holds := Block.holds_of_oneLine oneLine code
  obtain ⟨kept, keeps, same⟩ := (Firm.flatMap fun block (_ : block ∈ blocksOf content) =>
    firm_segments block).trim
  refine ⟨kept, keeps, ⟨?_, ?_⟩, ?_⟩
  · rw [body, (spells_flatMap _).same, same]
  · exact keeps.singleLines (singleLines_flatMap fun block member => (holds block member).code)
  · rw [← listing?_telling, keeps.same, listing?_telling, listing?_flatMap]

namespace WellFormed

variable {segments : List Segment} (wellFormed : WellFormed content segments)

include wellFormed

/-- No listing begins in a row: the rows are those that trimming has kept, empty ones apart. -/
theorem listless {text : Text} (isRow : .row text ∈ segments) :
    ¬ beginEnvironment listing <:+: text := by
  obtain ⟨kept, keeps, ⟨same, single⟩, listings⟩ := exists_kept oneLine
  have page : unlines (linesOf segments) = unlines (linesOf kept) :=
    wellFormed.lines.1.symm.trans same
  have counted := Segment.countP_rows (p := includes (beginEnvironment listing)) (by decide) page
    wellFormed.lines.2 single (wellFormed.listings.trans listings.symm)
  have absent : (kept.filterMap Segment.row?).countP (includes (beginEnvironment listing)) = 0 :=
    List.countP_eq_zero.mpr fun row member =>
      mt includes_iff.mp (listless_kept keeps (Segment.mem_rows_iff.mp member))
  rw [absent, List.countP_eq_zero] at counted
  exact mt includes_iff.mpr (counted text (Segment.mem_rows_iff.mpr isRow))

/-- **The segments are those that the page is read as.** If no code ends its own listing, whoever
passes over the listings of the body finds the rows, and the two ends of each listing in its
place. -/
theorem withoutListings_body
    (intact : ∀ listed ∈ (blocksOf content).filterMap Block.listing?, ∀ line ∈ listed.2,
      ¬ endEnvironment listing <:+: line) :
    withoutListings (body content) = unlines (segments.map Segment.remnant) := by
  rw [wellFormed.lines.1]
  refine Segment.withoutListings_unlines fun segment member => ?_
  cases segment with
  | row text => exact wellFormed.listless oneLine member
  | code option code =>
      have listed : (option, code) ∈ (blocksOf content).filterMap Block.listing? :=
        wellFormed.listings ▸ List.mem_filterMap.mpr ⟨_, member, rfl⟩
      obtain ⟨block, -, found⟩ := List.mem_filterMap.mp listed
      obtain ⟨tag, -, -, -, rfl, -⟩ := listing?_eq_some found
      exact List.forall_mem_cons.mpr ⟨end_not_isInfix_languageOption tag, intact _ listed⟩

end WellFormed

end Body

/-- **The body of a slide is well formed.** -/
theorem exists_wellFormed {content : List Text} (oneLine : ∀ line ∈ content, '\n' ∉ line) :
    ∃ segments, WellFormed content segments := by
  have lined : Lined (blocksOf content) := fun block member =>
    (Block.holds_of_oneLine oneLine (fun _ _ => trivial) block member).texts
  obtain ⟨kept, keeps, lines, listings⟩ := exists_kept oneLine
  obtain ⟨placed, places⟩ := Places.exists_places lined {} 0
  refine ⟨kept, lines, listings, ?_, placed, places.items, ?_, ?_⟩
  · rw [← environmentEnds_telling, keeps.same, environmentEnds_telling]
    exact wellNested_flatMap lined
  · rw [← itemLines_telling, keeps.same, itemLines_telling]
    exact places.lines
  · intro first isFirst last isLast ordered
    have same : itemsOf content = placed.map Prod.fst := places.items.symm
    rw [shared_iff places.chain isFirst isLast ordered, Joined, same]
    simp only [Linked, HasItem, List.mem_map, exists_exists_and_eq_and]

/-- A list of two items, one of another kind on the next line, code with an item in it and one
behind. -/
def shoppingList : List Text := [
  "- \\item[a]".toList, "* b".toList, "1. c".toList, "\x60\x60\x60".toList, "- d".toList,
  "\\end\x7bitemize\x7d".toList, "\x60\x60\x60".toList, "2. e".toList]

theorem exists_wellFormed_shoppingList :
    (∀ line ∈ shoppingList, '\n' ∉ line) ∧
      (itemsOf shoppingList).map (fun item => (item.position, item.kind)) =
        [(0, .bulleted), (1, .bulleted), (2, .numbered), (7, .numbered)] ∧
      ∃ segments, WellFormed shoppingList segments := by
  have oneLine : ∀ line ∈ shoppingList, '\n' ∉ line := by decide +kernel
  exact ⟨oneLine, by decide +kernel, exists_wellFormed oneLine⟩

end SlideDeck.Slide
