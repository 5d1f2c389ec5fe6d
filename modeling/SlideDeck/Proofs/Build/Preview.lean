import SlideDeck.Build.Preview
import SlideDeck.Proofs.Build.PageImage
import SlideDeck.Proofs.Files.Directory

/-!
# The images of one run

A preview removes the images that are there before it starts the tool (`prepare`). If they can be
removed they are all gone and nothing else is (`exists_of_prepare`), so the images that are found
afterwards are those that the tool wrote in this run (`preview_written`), whatever else it did.
-/

set_option autoImplicit false

namespace SlideDeck.Build

open SlideDeck.Text SlideDeck.FileTree SlideDeck.Activity PageImage

variable {host : Host} {w v : Workspace} {pdf : Path} {options : PreviewOptions}

/-! ## Removing images -/

/-- **Images at different places are all removed**, and everything else stays. -/
theorem exists_removeImages {images : List Path}
    (distinct : (images.map (target host.here)).Nodup)
    (removable : ∀ image ∈ images, ∃ after, w.files.removeFile host.here image = .ok after) :
    ∃ after, removeImages images host w = (.ok (), { w with files := after }) ∧
      ∀ place, after.entryAt place =
        if place ∈ images.map (target host.here) then none else w.files.entryAt place := by
  induction images generalizing w with
  | nil => exact ⟨w.files, rfl, fun place => by simp⟩
  | cons image images ih =>
      rw [List.map_cons, List.nodup_cons] at distinct
      rw [List.forall_mem_cons] at removable
      obtain ⟨⟨next, removed⟩, removable⟩ := removable
      obtain ⟨place, located, gone, leaf, agree⟩ := exists_of_removeFile removed
      obtain rfl : place = target host.here image :=
        eq_foldl_of_follow (locate_eq_ok.mp located).2
      have later : ∀ other ∈ images, ∃ after, next.removeFile host.here other = .ok after := by
        intro other member
        obtain ⟨after, removed'⟩ := removable other member
        obtain ⟨place', entry, found, noDirectory⟩ := exists_find_of_removeFile removed'
        refine exists_removeFile (agree.find leaf ?_ found) noDirectory
        rw [eq_target_of_find found]
        exact fun same => distinct.1 (same ▸ List.mem_map_of_mem member)
      obtain ⟨after, done, entries⟩ := ih (w := { w with files := next }) distinct.2 later
      refine ⟨after, ?_, fun place => ?_⟩
      · rw [removeImages, bind_of_ok (change_of_ok removed)]
        exact done
      · rw [entries place, List.map_cons]
        by_cases same : place = target host.here image
        · subst same
          simp [gone]
        · simp [same, agree place same]

/-! ## Before the tool starts -/

/-- The checks with which a preview begins. -/
def checks (pdf : Path) (options : PreviewOptions) : Activity Unit := do
  Activity.checkFile pdf
  Activity.checkWritable options.directory

/-- What a preview does before it starts the tool. -/
def prepare (pdf : Path) (options : PreviewOptions) : Activity Unit := do
  checks pdf options
  removeImages (← imagesOf options)

/-- What is answered when the tool has run: the images that are found, if it succeeded and there
are any. -/
def answer (host : Host) (options : PreviewOptions) : Except SystemFault Ran →
    Except Failure (List Path)
  | .error .notFound => .error (.previewToolMissing options.tool)
  | .error fault => .error (.unreadable fault)
  | .ok ran =>
    let images := (findAll ran.files host.here options.directory options.stem).map PageImage.path
    if !ran.succeeded then .error (.preview (.toolFailed (logOf ran)))
    else if images.isEmpty then
      .error (.noPages (options.directory ++ '/' :: options.stem ++ "*.png".toList))
    else .ok images

theorem imagesOf_apply (options : PreviewOptions) (host : Host) (w : Workspace) :
    imagesOf options host w =
      (.ok ((findAll w.files host.here options.directory options.stem).map PageImage.path), w) :=
  rfl

/-- A preview fails with its checks. -/
theorem preview_of_error {failure : Failure}
    (refused : prepare pdf options host w = (.error failure, v)) :
    preview pdf options host w = (.error failure, v) := by
  obtain ⟨rest, whole⟩ : ∃ rest, preview pdf options = prepare pdf options >>= rest :=
    ⟨_, by simp only [preview, prepare, checks, bind_assoc]; rfl⟩
  rw [whole, bind_of_error refused]

theorem preview_of_prepare (noViewer : options.viewer = none)
    (prepared : prepare pdf options host w = (.ok (), v)) :
    (preview pdf options host w).1 =
      answer host options (host.run v.files host.here (imageCommand pdf options)) := by
  obtain ⟨_, checked, passed, prepared⟩ := exists_of_bind_eq_ok prepared
  obtain ⟨_, found, file, writable⟩ := exists_of_bind_eq_ok passed
  rw [bind_of_ok (imagesOf_apply _ _ _)] at prepared
  rw [preview, bind_of_ok file, bind_of_ok writable, bind_of_ok (imagesOf_apply _ _ _),
    bind_of_ok prepared]
  cases run : host.run v.files host.here (imageCommand pdf options) with
  | error fault =>
      rw [bind_of_ok (start_of_error run)]
      cases fault <;> rfl
  | ok ran =>
      rw [bind_of_ok (start_of_ok run), answer]
      dsimp only
      cases ran.succeeded with
      | false => rfl
      | true =>
          change ((imagesOf options >>= _) host _).1 = _
          rw [bind_of_ok (imagesOf_apply _ _ _)]
          dsimp only
          cases (findAll ran.files host.here options.directory options.stem).map
              PageImage.path with
          | nil => rfl
          | cons image images =>
              rw [noViewer]
              rfl

/-! ## What is left of earlier runs -/

/-- What the checks leave in the way of the tool can be removed: every image that is there. -/
def Removable (pdf : Path) (options : PreviewOptions) (host : Host) (w : Workspace) : Prop :=
  ∀ v, checks pdf options host w = (.ok (), v) →
    ∀ image ∈ findAll v.files host.here options.directory options.stem,
      ∃ after, v.files.removeFile host.here image.path = .ok after

variable {stem name : Text} {number : Nat} {tree : FileTree} {here : Location} {directory : Path}

theorem ne_nil_of_mem_held (member : name ∈ held tree here directory) : directory ≠ [] := by
  rintro rfl
  obtain ⟨place, found, -⟩ := mem_held_iff.mp member
  exact absurd (locate_eq_ok.mp (find_eq_ok.mp found).1).1 (by decide)

/-- An image is under its name in the directory. -/
theorem target_image (isImage : IsImage stem name number) (nonempty : stem ≠ [])
    (noSlash : '/' ∉ stem)
    (someDirectory : directory ≠ []) :
    target here (below (arrival directory) name) = name :: target here directory := by
  have ok := isImage.isName nonempty noSlash
  rw [target_below here _ ok.noSlash, target_arrival here someDirectory,
    move_of_not_isTurn (isTurn_eq_false ok)]

theorem nodup_targets (lists : Lists here directory) (nonempty : stem ≠ []) (noSlash : '/' ∉ stem) :
    (((findAll tree here directory stem).map PageImage.path).map (target here)).Nodup := by
  refine List.Nodup.map_on ?_ (nodup_paths lists nonempty noSlash)
  simp only [List.mem_map, mem_findAll lists nonempty]
  rintro _ ⟨first, ⟨name, isImage, member, path⟩, rfl⟩ _ ⟨second, ⟨name', isImage', -, path'⟩, rfl⟩
    same
  have someDirectory := ne_nil_of_mem_held member
  rw [path, path', target_image isImage nonempty noSlash someDirectory,
    target_image isImage' nonempty noSlash someDirectory] at same
  rw [path, path', (List.cons.inj same).1]

/-- Before the tool starts the images that were there are gone, and nothing else is. -/
theorem exists_of_prepare (nonempty : options.stem ≠ []) (noSlash : '/' ∉ options.stem)
    (lists : Lists host.here options.directory) (removable : Removable pdf options host w)
    (prepared : prepare pdf options host w = (.ok (), v)) :
    ∃ checked, checks pdf options host w = (.ok (), checked) ∧
      ∀ place, v.files.entryAt place =
        if place ∈ ((findAll checked.files host.here options.directory options.stem).map
            PageImage.path).map (target host.here) then none
        else checked.files.entryAt place := by
  obtain ⟨_, checked, passed, prepared⟩ := exists_of_bind_eq_ok prepared
  refine ⟨checked, passed, ?_⟩
  rw [bind_of_ok (imagesOf_apply _ _ _)] at prepared
  have each : ∀ path ∈ (findAll checked.files host.here options.directory options.stem).map
      PageImage.path, ∃ after, checked.files.removeFile host.here path = .ok after := by
    intro path listed
    obtain ⟨image, member, rfl⟩ := List.mem_map.mp listed
    exact removable checked passed image member
  obtain ⟨after, removed, entries⟩ :=
    exists_removeImages (nodup_targets lists nonempty noSlash) each
  rw [removed, Prod.mk.injEq] at prepared
  obtain ⟨-, rfl⟩ := prepared
  exact entries

/-- **No image is left when the tool starts.** -/
theorem not_mem_held_of_prepare (nonempty : options.stem ≠ []) (noSlash : '/' ∉ options.stem)
    (lists : Lists host.here options.directory) (removable : Removable pdf options host w)
    (prepared : prepare pdf options host w = (.ok (), v))
    (isImage : IsImage options.stem name number) :
    name ∉ held v.files host.here options.directory := by
  obtain ⟨checked, -, entries⟩ := exists_of_prepare nonempty noSlash lists removable prepared
  intro member
  have someDirectory := ne_nil_of_mem_held member
  obtain ⟨place, found, there⟩ := mem_held_iff.mp member
  have keeps : KeepsDirectories v.files checked.files := by
    intro other inside
    rw [entries other] at inside
    split at inside
    · exact absurd inside nofun
    · exact inside
  have found' : checked.files.find host.here options.directory = .ok (place, .directory) :=
    find_of_locate (keeps.locate (find_eq_ok.mp found).1) (keeps place (find_eq_ok.mp found).2)
  rw [entries] at there
  split at there
  next => exact there rfl
  next absent =>
    refine absent (List.mem_map.mpr ⟨below (arrival options.directory) name,
      List.mem_map.mpr ⟨⟨number, _⟩, (mem_findAll lists nonempty).mpr ⟨name, isImage,
        mem_held_iff.mpr ⟨place, found', there⟩, rfl⟩, rfl⟩, ?_⟩)
    rw [target_image isImage nonempty noSlash someDirectory, eq_target_of_find found]

/-! ## What the tool wrote -/

/-- The images that came to a directory between two trees, by page: those whose names the directory
holds afterwards and did not hold before, each of them once. -/
structure Written (here : Location) (directory : Path) (stem : Text) (before after : FileTree)
    (images : List PageImage) : Prop where
  mem_iff : ∀ image, image ∈ images ↔ ∃ name, IsImage stem name image.number ∧
    name ∈ held after here directory ∧ name ∉ held before here directory ∧
    image.path = below (arrival directory) name
  /-- The path of an image leads to its name in the directory. -/
  leads : ∀ image ∈ images, ∃ name, IsImage stem name image.number ∧
    target here image.path = name :: target here directory
  nodup : (images.map PageImage.path).Nodup
  ordered : images.Pairwise fun a b =>
    a.number < b.number ∨ a.number = b.number ∧ Text.le a.path b.path = true

/-- **A preview answers with the images of its own run.** If the checks fail it fails with them.
Otherwise no image is there when the tool starts. If the tool fails so does the preview; if it
succeeds the answer is the images that it wrote, by page, and a failure if it wrote none. -/
theorem preview_written (noViewer : options.viewer = none) (nonempty : options.stem ≠ [])
    (noSlash : '/' ∉ options.stem) (lists : Lists host.here options.directory)
    (removable : Removable pdf options host w) :
    (∀ failure v, prepare pdf options host w = (.error failure, v) →
      preview pdf options host w = (.error failure, v)) ∧
    ∀ v, prepare pdf options host w = (.ok (), v) →
      (∀ name number, IsImage options.stem name number →
        name ∉ held v.files host.here options.directory) ∧
      match host.run v.files host.here (imageCommand pdf options) with
      | .error _ => ∃ failure, (preview pdf options host w).1 = .error failure
      | .ok ran =>
        if ran.succeeded then
          ∃ images,
            Written host.here options.directory options.stem v.files ran.files images ∧
            (preview pdf options host w).1 =
              if images = [] then
                .error (.noPages (options.directory ++ '/' :: options.stem ++ "*.png".toList))
              else .ok (images.map PageImage.path)
        else ∃ failure, (preview pdf options host w).1 = .error failure := by
  refine ⟨fun failure v refused => preview_of_error refused, fun v prepared => ?_⟩
  have gone : ∀ name number, IsImage options.stem name number →
      name ∉ held v.files host.here options.directory := fun name number isImage =>
    not_mem_held_of_prepare nonempty noSlash lists removable prepared isImage
  refine ⟨gone, ?_⟩
  rw [preview_of_prepare noViewer prepared]
  cases host.run v.files host.here (imageCommand pdf options) with
  | error fault => cases fault <;> exact ⟨_, rfl⟩
  | ok ran =>
      dsimp only
      rw [answer]
      cases ran.succeeded with
      | false => exact ⟨_, rfl⟩
      | true =>
          refine ⟨findAll ran.files host.here options.directory options.stem, ⟨?_, ?_, ?_, ?_⟩, ?_⟩
          · intro image
            rw [mem_findAll lists nonempty]
            refine exists_congr fun name => and_congr_right fun isImage =>
              and_congr_right fun _ => ?_
            exact ⟨fun path => ⟨gone name _ isImage, path⟩, fun both => both.2⟩
          · intro image found
            obtain ⟨name, isImage, member, path⟩ := (mem_findAll lists nonempty).mp found
            refine ⟨name, isImage, ?_⟩
            rw [path, target_image isImage nonempty noSlash (ne_nil_of_mem_held member)]
          · exact nodup_paths lists nonempty noSlash
          · exact pairwise_findAll _ _ _ _
          · cases findAll ran.files host.here options.directory options.stem <;> rfl

/-! ## One run -/

/-- A tool that writes the image of the second page. -/
def draw : Runner := fun tree _ _ =>
  .ok ⟨.exited 0, [], [], tree.insert ["page-2.png".toList, "out".toList] (.file [] false)⟩

/-- A host with the tool. -/
def drawingHost : Host := { bareHost with run := draw }

/-- A file, and a directory with the image of an earlier run. -/
def drawnTree : FileTree :=
  ((FileTree.empty.insert ["deck.pdf".toList] (.file [] false)).insert ["out".toList]
    .directory).insert ["page-1.png".toList, "out".toList] (.file [] false)

/-- A preview in the directory. -/
def drawnOptions : PreviewOptions := { directory := "out".toList }

theorem removable_drawn : Removable "deck.pdf".toList drawnOptions drawingHost
    { files := drawnTree } := by
  intro v passed
  obtain rfl := congrArg Prod.snd passed
  have stale : findAll (checks "deck.pdf".toList drawnOptions drawingHost
      { files := drawnTree }).2.files drawingHost.here drawnOptions.directory drawnOptions.stem =
        [⟨1, "out/page-1.png".toList⟩] := by
    decide +kernel
  have found : (checks "deck.pdf".toList drawnOptions drawingHost
      { files := drawnTree }).2.files.find drawingHost.here "out/page-1.png".toList =
        .ok (["page-1.png".toList, "out".toList], .file [] false) := by
    decide +kernel
  intro image member
  rw [stale, List.mem_singleton] at member
  rw [member]
  exact exists_removeFile found nofun

/-- The image of the earlier run is not shown. -/
theorem preview_written_drawn : ∃ before images,
    prepare "deck.pdf".toList drawnOptions drawingHost { files := drawnTree } = (.ok (), before) ∧
      Written [] "out".toList "page".toList before.files
        (before.files.insert ["page-2.png".toList, "out".toList] (.file [] false)) images ∧
      images.map PageImage.path = ["out/page-2.png".toList] := by
  have lists : Lists drawingHost.here drawnOptions.directory :=
    lists_of_plain (by decide) (by decide)
  have prepared : prepare "deck.pdf".toList drawnOptions drawingHost { files := drawnTree } =
      (.ok (), _) := Prod.ext (by decide +kernel) rfl
  have shown : (preview "deck.pdf".toList drawnOptions drawingHost { files := drawnTree }).1 =
      .ok ["out/page-2.png".toList] := by
    decide +kernel
  obtain ⟨images, written, answered⟩ :=
    ((preview_written rfl (by decide) (by decide) lists removable_drawn).2 _ prepared).2
  rw [shown] at answered
  split at answered
  · exact absurd answered nofun
  · exact ⟨_, images, prepared, written, (Except.ok.inj answered).symm⟩

end SlideDeck.Build
