import SlideDeck.Proofs.Html.TagReader

/-!
# The list tags of a piece of HTML

The tags of lists and of their items, in the order in which they stand in a text
(`listTags`), and whether they are nested as HTML wants them: items directly in lists, and
everything closed by its own tag before what contains it is closed (`nested`).

They are read as all tags are (`readsTags_listTag`): in marked text they are found where they were
written and nowhere else, and what comes last in the making of a fragment leaves them as they are.
-/

set_option autoImplicit false

namespace SlideDeck.Html

open SlideDeck SlideDeck.Text

/-! ## The tags -/

/-- The tags of lists and of their items. -/
inductive ListTag where
  | opensList (ordered : Bool)
  | closesList (ordered : Bool)
  | opensItem
  | closesItem
  deriving DecidableEq, Repr

/-- The name of the element of a list. -/
def listName (ordered : Bool) : Text := if ordered then "ol".toList else "ul".toList

namespace ListTag

/-- The tag as it stands in the text. -/
def written : ListTag → Text
  | opensList ordered => openTag (listName ordered)
  | closesList ordered => closeTag (listName ordered)
  | opensItem => openTag "li".toList
  | closesItem => closeTag "li".toList

/-- All tags of lists. -/
def all : List ListTag := [
  opensList false, opensList true, closesList false, closesList true, opensItem, closesItem]

theorem mem_all (tag : ListTag) : tag ∈ all := by
  rcases tag with (_ | _) | (_ | _) | _ | _ <;> decide

theorem isTag_written (tag : ListTag) : IsTag tag.written := by
  have known : ∀ ordered, listName ordered ∈ elementNames := by decide
  cases tag with
  | opensList ordered => exact .opening (known ordered)
  | closesList ordered => exact .closing (known ordered)
  | opensItem => exact .opening (by decide)
  | closesItem => exact .closing (by decide)

end ListTag

/-- Matches a tag of a list. -/
def listTag? : Matcher ListTag := fun s =>
  ListTag.all.findSome? fun tag => (skip? tag.written s).map fun rest => (tag, rest)

/-- The tags of lists in a text, in order. -/
def listTags (s : Text) : List ListTag := matchesOf listTag? s

/-! ## Nesting -/

/-- An element around what comes next. -/
inductive Enclosing where
  | list (ordered : Bool)
  | item
  deriving DecidableEq, Repr

/-- Whether the tags are nested behind tags that have opened the elements around them,
innermost first: a list stands at the top or in an item, an item stands directly in a list,
and each element is closed by its own tag while it is the innermost one. -/
def nestedIn : List Enclosing → List ListTag → Bool
  | around, [] => around.isEmpty
  | [], .opensList ordered :: rest => nestedIn [.list ordered] rest
  | .item :: around, .opensList ordered :: rest => nestedIn (.list ordered :: .item :: around) rest
  | .list ordered :: around, .closesList closed :: rest => ordered == closed && nestedIn around rest
  | .list ordered :: around, .opensItem :: rest => nestedIn (.item :: .list ordered :: around) rest
  | .item :: around, .closesItem :: rest => nestedIn around rest
  | _, _ :: _ => false

/-- Whether the tags are nested. -/
def nested (tags : List ListTag) : Bool := nestedIn [] tags

/-! ## Reading tags -/

theorem readsTags_listTag : ReadsTags ListTag.written listTag? where
  isTag := ListTag.isTag_written
  reads tag s := by rcases tag with (_ | _) | (_ | _) | _ | _ <;> rfl
  whole := eq_of_findSome?_skip?

@[simp] theorem listTags_nil : listTags [] = [] := rfl

theorem listTags_cons {c : Char} (other : c ≠ '<') (s : Text) : listTags (c :: s) = listTags s :=
  readsTags_listTag.cons other s

/-- Text without `<` holds no tag. -/
theorem listTags_append_of_not_mem {s : Text} (noLess : '<' ∉ s) (t : Text) :
    listTags (s ++ t) = listTags t :=
  readsTags_listTag.append_of_not_mem noLess t

theorem listTags_written (tag : ListTag) (s : Text) :
    listTags (tag.written ++ s) = tag :: listTags s :=
  readsTags_listTag.written_append tag s

/-- **Behind marked text, tags are read on their own.** -/
theorem Marked.listTags_append {s : Text} (marked : Marked s) (t : Text) :
    listTags (s ++ t) = listTags s ++ listTags t :=
  readsTags_listTag.append marked t

/-- **What comes last in the making of a fragment leaves the list tags as they are.** -/
theorem listTags_finished {s : Text} (marked : Marked s) :
    listTags (Text.trim (collapseGaps (resolveEscapes (dropGroupBraces (remove commandName? s))))) =
      listTags s :=
  readsTags_listTag.finished marked

end SlideDeck.Html
