/-
**Time between actions.**

Time passes while nobody acts: the clock shows something else, and files are marked with another time
from then on.  Nothing that is there changes by it.

Main definitions:

* `Instant`, `Instant.enter` — what the clock shows and files are marked with, and a workspace then.

Main results:

* `Instant.keeps_enter` — time that passes changes nothing.
-/
import DesignRegistry.Proofs.Storage.Shelf
import DesignRegistry.Proofs.Workspace.Frame

set_option relaxedAutoImplicit false
set_option autoImplicit false

namespace DesignRegistry

/-- What the clock shows, and the time that files are marked with. -/
structure Instant where
  /-- The clock. -/
  clock : Clock
  /-- The time of the files that are written. -/
  now : Int

namespace Instant

variable {w : Workspace}

/-- A workspace at an instant. -/
def enter (i : Instant) (w : Workspace) : Workspace :=
  { w with clock := i.clock, files := w.files.atTime i.now }

@[simp] theorem store_enter (i : Instant) (w : Workspace) : (i.enter w).store = w.store := rfl

@[simp] theorem files_enter (i : Instant) (w : Workspace) :
    (i.enter w).files = w.files.atTime i.now := rfl

@[simp] theorem clock_enter (i : Instant) (w : Workspace) : (i.enter w).clock = i.clock := rfl

/-- Time that passes changes nothing. -/
theorem keeps_enter (hw : w.Sound) (i : Instant) : w.Keeps (i.enter w) [] :=
  .of_files hw (hw.files.atTime i.now) (FileSystem.keeps_atTime w.files i.now) i.clock

theorem sound_enter (hw : w.Sound) (i : Instant) : (i.enter w).Sound := (keeps_enter hw i).sound

end Instant

end DesignRegistry
