import ModuleBundler.Failure

/-!
# Attempts to compile

A compiler may crash.  A crash must not take the build down with it, so that it
becomes a failure of the file that was compiled.

Main results:

- Theorem {lit}`Attempt.guarded_finished`: what a compiler answers is left as it is.
-/

namespace ModuleBundler
namespace Workers

/-- What came of an attempt to compile. -/
inductive Attempt (α : Type) where
  | finished (result : Except Failure α)
  /-- The compiler has crashed, with a message if it left one. -/
  | crashed (message : Option String)

namespace Attempt

variable {α : Type}

/-- The result of an attempt on a file. -/
def guarded (p : Path) : Attempt α → Except Failure α
  | finished result => result
  | crashed message => .error (.compileIn ("worker crashed: " ++ message.getD "unknown panic") p)

@[simp]
theorem guarded_finished (p : Path) (result : Except Failure α) :
    (finished result).guarded p = result := rfl

end Attempt
end Workers
end ModuleBundler
