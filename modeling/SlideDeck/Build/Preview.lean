import SlideDeck.Build.Compilation
import SlideDeck.Build.PageImage

/-!
# Previews

A preview is the images of the pages of a PDF file. Images of an earlier run are
removed before the tool starts, so those that are found afterwards are of this run.
-/

set_option autoImplicit false

namespace SlideDeck.Build

open SlideDeck SlideDeck.Text

/-- Shows an image. The viewer is a command with arguments. -/
def showImage (viewer : Text) (image : Path) : Activity Unit := do
  match words viewer with
  | [] => throw (.setting .emptyViewer)
  | program :: arguments =>
    match ← Activity.start ⟨program, arguments ++ [image], Path.here⟩ with
    | .error fault => throw (.preview (.viewerNotRun program fault))
    | .ok ran =>
      Activity.passOn ran
      if !ran.succeeded then Activity.notice (.viewerFailed ran.ending image)

/-- The command that makes the images. -/
def imageCommand (pdf : Path) (options : PreviewOptions) : Command where
  program := options.tool
  arguments :=
    ["-png".toList, "-f".toList, ofNat options.pages.first] ++
    (match options.pages.last with
      | some last => ["-l".toList, ofNat last]
      | none => []) ++
    ["-scale-to-x".toList, ofNat options.width, "-scale-to-y".toList, "-1".toList, pdf,
      Path.child options.directory options.stem]

/-- The images of a preview that are there. -/
def imagesOf (options : PreviewOptions) : Activity (List Path) := do
  return (← Activity.look fun tree here =>
    PageImage.findAll tree here options.directory options.stem).map PageImage.path

/-- Removes the images of an earlier run. One that cannot be removed stays. -/
def removeImages : List Path → Activity Unit
  | [] => pure ()
  | image :: images => do
    match ← Activity.change fun tree here => tree.removeFile here image with
    | .ok () => pure ()
    | .error fault => Activity.notice (.staleImageKept image fault)
    removeImages images

/-- Makes images of the pages of a PDF file and shows them. The result is their
paths, by page. -/
def preview (pdf : Path) (options : PreviewOptions) : Activity (List Path) := do
  Activity.checkFile pdf
  Activity.checkWritable options.directory
  removeImages (← imagesOf options)
  match ← Activity.start (imageCommand pdf options) with
  | .error .notFound => throw (.previewToolMissing options.tool)
  | .error fault => throw (.unreadable fault)
  | .ok ran => if !ran.succeeded then throw (.preview (.toolFailed (logOf ran)))
  let images ← imagesOf options
  if images.isEmpty then
    throw (.noPages (options.directory ++ '/' :: options.stem ++ "*.png".toList))
  match options.viewer with
  | some viewer => images.forM (showImage viewer)
  | none => pure ()
  return images

end SlideDeck.Build
