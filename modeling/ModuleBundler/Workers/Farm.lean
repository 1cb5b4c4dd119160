import ModuleBundler.Workers.Attempt

/-!
# Worker farms

A farm compiles on the spot until its pool of workers is ready.  The pool is
built in the background; once it is registered every worker has to be told the
options, which is called a warm-up.  When the options change all workers are
warmed up again, and a warm-up counts only if no newer one was begun meanwhile.
A farm that was ended compiles on the spot for ever.

Everything that goes on beside each other is split into its steps, so that the
steps of warm-ups, changes of the options, requests and the end of the farm may
come in any order.  What is done under the lock of the farm is one step.

Main results:

- Theorem {lit}`Farm.started_end`: a farm that was ended is not started.
- Theorem {lit}`Farm.compiler_step`: the compiler of a farm never changes.
-/

namespace ModuleBundler
namespace Workers

/-- How far a warm-up has come; {lit}`ω` is what workers are told. -/
inductive Stage (ω : Type) where
  /-- The options have yet to be read. -/
  | begun
  /-- The options were read, and have yet to be sent. -/
  | ready (options : ω)
  /-- The options were sent in the broadcast with a number. -/
  | sent (broadcast : Nat)
  /-- All workers have run the broadcast, and it was seen whether the warm-up counts. -/
  | done (broadcast : Nat)
deriving DecidableEq, Repr

/-- A warm-up, with the generation that it was begun for. -/
structure WarmUp (ω : Type) where
  generation : Nat
  stage : Stage ω := .begun
deriving DecidableEq, Repr

/-- What a warm-up has all workers run. -/
structure Broadcast (ω : Type) where
  generation : Nat
  options : ω
deriving DecidableEq, Repr

/-- Where a request is compiled. -/
inductive Route where
  /-- The farm was seen started, but the pool has yet to be looked up. -/
  | undecided
  | pooled
  | inPlace
deriving DecidableEq, Repr

/-- A farm; {lit}`κ` is how compilers are known, and {lit}`ω` what they are told. -/
structure Farm (κ ω : Type) where
  compiler : κ
  options : ω
  /-- Whether the pool is still being built. -/
  building : Bool := true
  /-- Whether a pool is registered. -/
  hasPool : Bool := false
  /-- How often the workers had to be warmed up again. -/
  generation : Nat := 0
  /-- How many changes of the options have yet to have the workers warmed up again. -/
  changing : Nat := 0
  warmUps : List (WarmUp ω) := []
  /-- What was sent to all workers, in this order. -/
  broadcasts : List (Broadcast ω) := []
  /-- The numbers of the broadcasts that each worker has run, in this order. -/
  logs : List (List Nat)
  /-- What became of the requests to compile. -/
  requests : List Route := []
  started : Bool := false
  ended : Bool := false
deriving DecidableEq, Repr

/-- A step of a farm.  Warm-ups, workers, broadcasts and requests are known by their numbers. -/
inductive FarmStep (ω : Type) where
  /-- The options change. -/
  | setOptions (options : ω)
  /-- The workers have to be warmed up again since the options have changed. -/
  | renew
  | stop
  /-- The pool was built. -/
  | register
  /-- The pool could not be built. -/
  | fail
  /-- A warm-up goes on. -/
  | proceed (warmUp : Nat)
  /-- A worker runs a broadcast. -/
  | serve (worker broadcast : Nat)
  /-- A request comes in and sees whether the farm is started. -/
  | ask
  /-- A request looks up the pool. -/
  | look (request : Nat)
deriving DecidableEq, Repr

namespace Farm

variable {κ ω : Type}

/-- How many workers a pool gets: those that are asked for, or else one for every processor. -/
def poolSize (processors workers : Nat) : Nat :=
  if workers = 0 then processors else workers

/-- A new farm, with one worker at least. -/
def new (compiler : κ) (options : ω) (workers : Nat) : Farm κ ω where
  compiler := compiler
  options := options
  logs := List.replicate (max workers 1) []

/-! ## Steps -/

/-- Whether all workers have run a broadcast. -/
def heard (farm : Farm κ ω) (broadcast : Nat) : Bool :=
  farm.logs.all fun log => log.contains broadcast

/-- Note how far a warm-up has come. -/
def advance (farm : Farm κ ω) (number : Nat) (stage : Stage ω) : Farm κ ω :=
  { farm with warmUps := farm.warmUps.modify number fun warmUp => { warmUp with stage } }

/-- What a warm-up does next: it reads the options, sends them to all workers, waits for these and
starts the pool unless it is out of date. -/
def proceed (farm : Farm κ ω) (number : Nat) (warmUp : WarmUp ω) : Farm κ ω :=
  match warmUp.stage with
  | .begun => farm.advance number (.ready farm.options)
  | .ready options =>
    { farm.advance number (.sent farm.broadcasts.length) with
      broadcasts := farm.broadcasts ++ [{ generation := warmUp.generation, options }] }
  | .sent broadcast =>
    if farm.heard broadcast then
      { farm.advance number (.done broadcast) with
        started := farm.started || (farm.generation == warmUp.generation && !farm.ended) }
    else farm
  | .done _ => farm

/-- Take a step; a step that is not possible changes nothing. -/
def step (farm : Farm κ ω) : FarmStep ω → Farm κ ω
  | .setOptions options => { farm with options, changing := farm.changing + 1 }
  | .renew =>
    if farm.changing = 0 then farm
    else
      let generation := farm.generation + 1
      { farm with
        generation
        changing := farm.changing - 1
        started := false
        warmUps := if farm.hasPool then farm.warmUps ++ [{ generation }] else farm.warmUps }
  | .stop => { farm with ended := true, started := false, hasPool := false }
  | .register =>
    if farm.building then
      if farm.ended then { farm with building := false }
      else
        { farm with
          building := false
          hasPool := true
          warmUps := farm.warmUps ++ [{ generation := farm.generation }] }
    else farm
  | .fail => { farm with building := false }
  | .proceed number => farm.warmUps[number]?.elim farm (farm.proceed number)
  | .serve worker broadcast =>
    if broadcast < farm.broadcasts.length then
      { farm with
        logs := farm.logs.modify worker fun log =>
          if log.contains broadcast then log else log ++ [broadcast] }
    else farm
  | .ask => { farm with requests := farm.requests ++ [if farm.started then .undecided else .inPlace] }
  | .look number =>
    { farm with
      requests := farm.requests.modify number fun
        | .undecided => if farm.hasPool then .pooled else .inPlace
        | route => route }

/-- Take steps. -/
def run (farm : Farm κ ω) (steps : List (FarmStep ω)) : Farm κ ω :=
  steps.foldl step farm

/-! ## Use -/

/-- Change the options, which all workers have to be told. -/
def init (farm : Farm κ ω) (options : ω) : Farm κ ω :=
  farm.run [.setOptions options, .renew]

/-- End the farm. -/
def stop (farm : Farm κ ω) : Farm κ ω :=
  farm.step .stop

/-- The farm when all background work is done: every warm-up has at most three steps to go, and the
last one waits for the workers. -/
def settled (farm : Farm κ ω) : Farm κ ω :=
  let farm := farm.step .register
  let warmUps := (List.range farm.warmUps.length).map .proceed
  let farm := farm.run (warmUps ++ warmUps)
  let broadcasts := List.range farm.broadcasts.length
  let farm := farm.run ((List.range farm.logs.length).flatMap fun worker => broadcasts.map (.serve worker))
  farm.run warmUps

/-! ### Laws -/

theorem started_end (farm : Farm κ ω) : farm.stop.started = false := rfl

@[simp]
theorem compiler_proceed (farm : Farm κ ω) (number : Nat) (warmUp : WarmUp ω) :
    (farm.proceed number warmUp).compiler = farm.compiler := by
  unfold proceed
  repeat' split
  all_goals rfl

theorem compiler_step (farm : Farm κ ω) (action : FarmStep ω) :
    (farm.step action).compiler = farm.compiler := by
  cases action with
  | proceed number => cases found : farm.warmUps[number]? <;> simp [step, found]
  | _ => simp only [step] <;> (repeat' split) <;> rfl

end Farm

/-! ## Shared farms -/

/-- All farms that were made, and the one that is shared. -/
structure Farms (κ ω : Type) where
  farms : List (Farm κ ω) := []
  /-- The number of the shared farm. -/
  shared : Option Nat := none
  /-- How many workers a shared farm gets. -/
  workers : Nat

namespace Farms

variable {κ ω : Type}

/-- No farms so far. -/
def ofWorkers (workers : Nat) : Farms κ ω where
  workers := max workers 1

/-- The farm with a number. -/
def get? (farms : Farms κ ω) (number : Nat) : Option (Farm κ ω) :=
  farms.farms[number]?

/-- Change the farm with a number. -/
def update (farms : Farms κ ω) (number : Nat) (change : Farm κ ω → Farm κ ω) : Farms κ ω :=
  { farms with farms := farms.farms.modify number change }

/-- Make a farm. -/
def make (farms : Farms κ ω) (compiler : κ) (options : ω) (workers : Nat) : Nat × Farms κ ω :=
  (farms.farms.length, { farms with farms := farms.farms ++ [.new compiler options workers] })

/-- The shared farm, which is told the options if there is one already, and is made otherwise. -/
def share (farms : Farms κ ω) (compiler : κ) (options : ω) : Nat × Farms κ ω :=
  match farms.shared with
  | some number => (number, farms.update number fun farm => farm.init options)
  | none =>
    let (number, farms) := farms.make compiler options farms.workers
    (number, { farms with shared := some number })

/-- End the shared farm, so that the next one to be shared is a new one. -/
def endShared (farms : Farms κ ω) : Farms κ ω :=
  match farms.shared with
  | some number => { farms.update number Farm.stop with shared := none }
  | none => farms

theorem shared_endShared (farms : Farms κ ω) : farms.endShared.shared = none := by
  unfold endShared
  split
  · rfl
  · assumption

end Farms
end Workers
end ModuleBundler
