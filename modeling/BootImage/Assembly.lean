import BootImage.Image.Builder
import BootImage.Layout

/-!
# Assembling an image

The image of a program holds its `.text` and `.rodata` sections, in this order, at the addresses of its
layout.
-/

namespace BootImage

def Layout.sections (layout : Layout) (text rodata : Bytes) : List Section :=
  [{ name := ".text", loadAddress := layout.bounds.textStart, contents := text },
    { name := ".rodata", loadAddress := layout.bounds.rodataStart, contents := rodata }]

def assemble (layout : Layout) (text rodata : Bytes) : Except PackFailure CompleteImage :=
  ((Builder.start { entry := layout.entry }).packAll (layout.sections text rodata)).map Builder.complete

end BootImage
