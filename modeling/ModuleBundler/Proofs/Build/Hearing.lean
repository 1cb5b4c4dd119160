import ModuleBundler.Proofs.Build.Bursts
import ModuleBundler.Proofs.Build.Inlining
import ModuleBundler.Proofs.Build.Waiting

/-!
# Hearing of changes

Anything can happen to a session from outside, in any order: time passes, changes of
files are reported, the world changes, passes are asked for.  A log
({lit}`Session.Log`) tells when a change was accepted, in which waits a pass was
started, and what the session has done.  The timers start one pass for each burst of
accepted changes, one window after the last one of them; other changes leave no trace;
and the asset that an accepted change concerns waits until a pass takes it.

Main results:

- Theorem {lit}`Session.advance_advance`: two waits come to the same as one wait.
- Theorem {lit}`Session.change_of_none`: a change that concerns no asset does nothing.
- Theorem {lit}`Session.waits_meet`: whatever happens, who waits goes on to wait until it is taken.
- Theorem {lit}`Session.Log.Sound.next`: whatever happens, the log is true.
-/

namespace ModuleBundler
namespace Build

variable {κ π σ : Type}

namespace Session

/-! ## Happenings -/

/-- What can happen to a session from outside. -/
inductive Happening (σ : Type) where
  /-- So many milliseconds pass. -/
  | wait (milliseconds : Nat)
  /-- A change of a file is reported. -/
  | change (p : Path)
  /-- A change of which a pass has taken note while it was working starts its timer. -/
  | overheard
  /-- The world changes. -/
  | edit (world : σ)
  /-- A pass is asked for. -/
  | pass
  | stop

/-- A session after something has happened to it. -/
def meet (session : Session κ π σ) : Happening σ → Session κ π σ
  | .wait milliseconds => session.advance milliseconds
  | .change p => session.change p
  | .overheard => { session with debounce := session.debounce.request }
  | .edit world => { session with work := { session.work with world } }
  | .pass => session.bundle.2
  | .stop => session.stop

/-- When a change is accepted. -/
def hears (session : Session κ π σ) : Happening σ → List Nat
  | .change p => if (session.work.state.graph.owner? p).isSome then [session.debounce.clock] else []
  | .overheard => [session.debounce.clock]
  | _ => []

/-- A wait in which a pass falls due, which is then run ({lit}`advance_of_due`): the time at which the wait begins
and the time at which it ends. -/
def starts (session : Session κ π σ) : Happening σ → List (Nat × Nat)
  | .wait milliseconds =>
    if (session.debounce.advance milliseconds).1 then
      [(session.debounce.clock, session.debounce.clock + milliseconds)]
    else []
  | _ => []

/-- What is done in a pass, unless more modules are found than there are. -/
def bundleTrail (session : Session κ π σ) : List (Moment σ) :=
  match session.bundle? session.depth with
  | none => []
  | some _ => session.passTrail session.depth

/-- What a session does when something happens to it. -/
def does (session : Session κ π σ) : Happening σ → List (Moment σ)
  | .wait milliseconds =>
    if (session.debounce.advance milliseconds).1 then
      ({ session with debounce := (session.debounce.advance milliseconds).2 } : Session κ π σ).bundleTrail
    else []
  | .change p =>
    if (session.work.state.graph.owner? p).isSome then [⟨.noticed p, (session.queueChange p).2.work⟩] else []
  | .overheard => []
  | .edit world => [⟨.edited, { session.work with world }⟩]
  | .pass => session.bundleTrail
  | .stop => [⟨.closed, session.stop.work⟩]

/-! ## Passes and timers -/

/-- A pass has nothing to do with the timers. -/
theorem bundle?_debounce (session : Session κ π σ) (debounce : Debounce) (depth : Nat) :
    ({ session with debounce } : Session κ π σ).bundle? depth =
      (session.bundle? depth).map fun found => (found.1, { found.2 with debounce }) := by
  unfold bundle?
  dsimp only [start]
  cases Pass.run session.tools session.setup depth (session.work.tell .started) with
  | none => rfl
  | some found =>
    dsimp only [Option.map_some]
    split <;> rfl

theorem bundle_debounce (session : Session κ π σ) (debounce : Debounce) :
    ({ session with debounce } : Session κ π σ).bundle.2 = { session.bundle.2 with debounce } := by
  have hdepth : ({ session with debounce } : Session κ π σ).depth = session.depth := rfl
  unfold bundle
  rw [hdepth, bundle?_debounce]
  cases session.bundle? session.depth <;> rfl

theorem debounce_bundle (session : Session κ π σ) : session.bundle.2.debounce = session.debounce := by
  rw [show session.bundle.2 = _ from session.bundle_debounce session.debounce]

theorem tools_bundle (session : Session κ π σ) : session.bundle.2.tools = session.tools := by
  unfold bundle
  cases hbundle : session.bundle? session.depth with
  | none => rfl
  | some found => exact tools_of_bundle? hbundle

theorem linked_bundleTrail (session : Session κ π σ) :
    Linked session.tools .anything session.work session.bundleTrail session.bundle.2.work := by
  unfold bundle bundleTrail
  cases hbundle : session.bundle? session.depth with
  | none => exact .nil _
  | some found => exact linked_passTrail .anything hbundle

/-- Who waits when a pass is asked for waits until it is taken. -/
theorem waits_bundleTrail {id : AssetId} {session : Session κ π σ} (hrouted : session.work.state.Routed)
    (hid : id ∈ session.work.state.queue) : Waits id session.bundleTrail session.bundle.2.work := by
  unfold bundle bundleTrail
  cases hbundle : session.bundle? session.depth with
  | none => exact .nil hid
  | some found => exact waits_passTrail hbundle hrouted hid

theorem advance_eq (session : Session κ π σ) (milliseconds : Nat) :
    session.advance milliseconds =
      if (session.debounce.advance milliseconds).1 then
        ({ session with debounce := (session.debounce.advance milliseconds).2 } : Session κ π σ).bundle.2
      else { session with debounce := (session.debounce.advance milliseconds).2 } := rfl

/-- After a wait in which a pass falls due the pass has been run. -/
theorem advance_of_due {session : Session κ π σ} {milliseconds : Nat}
    (hdue : (session.debounce.advance milliseconds).1 = true) :
    session.advance milliseconds =
      { session.bundle.2 with debounce := (session.debounce.advance milliseconds).2 } := by
  rw [← bundle_debounce, advance_eq, if_pos hdue]

/-- Otherwise only time has passed. -/
theorem advance_of_not_due {session : Session κ π σ} {milliseconds : Nat}
    (hdue : (session.debounce.advance milliseconds).1 = false) :
    session.advance milliseconds =
      { session with debounce := (session.debounce.advance milliseconds).2 } := by
  rw [advance_eq, hdue, if_neg Bool.false_ne_true]

theorem debounce_advance (session : Session κ π σ) (milliseconds : Nat) :
    (session.advance milliseconds).debounce = (session.debounce.advance milliseconds).2 := by
  cases hdue : (session.debounce.advance milliseconds).1 with
  | false => rw [advance_of_not_due hdue]
  | true => rw [advance_of_due hdue]

/-- Two waits come to the same as one wait, so that time can be cut into waits as one likes. -/
theorem advance_advance {session : Session κ π σ} {heard : List Nat} (h : session.debounce.Keeps heard)
    (a b : Nat) : (session.advance a).advance b = session.advance (a + b) := by
  cases hdue : (session.debounce.advance a).1 with
  | true =>
    obtain ⟨hlong, hnext⟩ := h.due_add_of_true hdue b
    rw [← debounce_advance] at hnext
    rw [advance_of_not_due hnext, advance_of_due hlong, advance_of_due hdue, Debounce.advance_add]
  | false =>
    have hlong := h.due_add_of_false hdue b
    rw [advance_of_not_due hdue]
    cases hnext : ((session.debounce.advance a).2.advance b).1 with
    | false => rw [advance_of_not_due hnext, advance_of_not_due (hlong.trans hnext), Debounce.advance_add]
    | true =>
      rw [advance_of_due hnext, advance_of_due (hlong.trans hnext), bundle_debounce, Debounce.advance_add]

/-! ## Changes -/

/-- A change that concerns no asset does nothing. -/
theorem change_of_none {session : Session κ π σ} {p : Path}
    (howner : session.work.state.graph.owner? p = none) : session.change p = session := by
  unfold change queueChange Work.notify State.notify
  rw [howner]

/-- A change that concerns an asset is noted, and starts a timer. -/
theorem change_of_owner {session : Session κ π σ} {p : Path} {id : AssetId}
    (howner : session.work.state.graph.owner? p = some id) :
    session.change p = { (session.queueChange p).2 with debounce := session.debounce.request } := by
  unfold change queueChange Work.notify State.notify
  rw [howner]

/-! ## Sessions as things happen to them -/

theorem tools_meet (session : Session κ π σ) (happening : Happening σ) :
    (session.meet happening).tools = session.tools := by
  cases happening with
  | wait milliseconds =>
    show (session.advance milliseconds).tools = session.tools
    rw [advance_eq]
    split
    · rw [tools_bundle]
    · rfl
  | change p =>
    show (session.change p).tools = session.tools
    cases howner : session.work.state.graph.owner? p with
    | none => rw [change_of_none howner]
    | some id =>
      rw [change_of_owner howner]
      rfl
  | pass => exact session.tools_bundle
  | _ => rfl

/-- Whatever happens, a session goes step by step. -/
theorem linked_meet (session : Session κ π σ) (happening : Happening σ) :
    Linked session.tools .anything session.work (session.does happening) (session.meet happening).work := by
  cases happening with
  | wait milliseconds =>
    show Linked session.tools .anything session.work (if _ then _ else _) (session.advance milliseconds).work
    rw [advance_eq]
    split
    · exact linked_bundleTrail { session with debounce := (session.debounce.advance milliseconds).2 }
    · exact .nil _
  | change p =>
    show Linked session.tools .anything session.work (if _ then _ else _) (session.change p).work
    cases howner : session.work.state.graph.owner? p with
    | none =>
      rw [change_of_none howner]
      exact .nil _
    | some id =>
      rw [change_of_owner howner]
      exact .single (.noticed p)
  | overheard => exact .nil _
  | edit world => exact .single (.edited trivial)
  | pass => exact session.linked_bundleTrail
  | stop => exact .single (.closed (.inl trivial))

/-- Whatever happens, who waits goes on to wait until it is taken. -/
theorem waits_meet {id : AssetId} {session : Session κ π σ} (hrouted : session.work.state.Routed)
    (hid : id ∈ session.work.state.queue) (happening : Happening σ) :
    Waits id (session.does happening) (session.meet happening).work := by
  cases happening with
  | wait milliseconds =>
    show Waits id (if _ then _ else _) (session.advance milliseconds).work
    rw [advance_eq]
    split
    · exact @waits_bundleTrail κ π σ id { session with debounce := (session.debounce.advance milliseconds).2 }
        hrouted hid
    · exact .nil hid
  | change p =>
    show Waits id (if _ then _ else _) (session.change p).work
    cases howner : session.work.state.graph.owner? p with
    | none =>
      rw [change_of_none howner]
      exact .nil hid
    | some other =>
      rw [change_of_owner howner]
      exact .single ((session.work.notices_notify p).queue id hid)
  | overheard => exact .nil hid
  | edit world => exact .single hid
  | pass => exact waits_bundleTrail hrouted hid
  | stop => exact .single hid

/-! ## Logs -/

/-- A session with all that has happened to it. -/
structure Log (κ π σ : Type) where
  session : Session κ π σ
  /-- When changes were accepted. -/
  heard : List Nat := []
  /-- The waits in which the timers have started a pass. -/
  started : List (Nat × Nat) := []
  /-- All that was done. -/
  trail : List (Moment σ) := []

namespace Log

/-- The log of a session for an entry, to which nothing has happened yet. -/
def new (settings : Settings) (entry : Path) (types : AssetTypes κ) (packagers : Packagers π)
    (tools : Toolset κ π σ) (world : σ) : Log κ π σ where
  session := Session.new settings entry types packagers tools world

/-- The log after something has happened. -/
def next (log : Log κ π σ) (happening : Happening σ) : Log κ π σ where
  session := log.session.meet happening
  heard := log.heard ++ log.session.hears happening
  started := log.started ++ log.session.starts happening
  trail := log.trail ++ log.session.does happening

theorem next_pass (log : Log κ π σ) : log.next .pass =
    { log with session := log.session.bundle.2, trail := log.trail ++ log.session.bundleTrail } := by
  simp [next, meet, hears, starts, does]

/-- The log after one thing has happened after another. -/
def after (log : Log κ π σ) (happenings : List (Happening σ)) : Log κ π σ :=
  happenings.foldl next log

variable {log : Log κ π σ} {happening : Happening σ}

theorem after_append (log : Log κ π σ) (past future : List (Happening σ)) :
    log.after (past ++ future) = (log.after past).after future :=
  List.foldl_append

theorem after_cons (log : Log κ π σ) (happening : Happening σ) (future : List (Happening σ)) :
    log.after (happening :: future) = (log.next happening).after future := rfl

/-- What becomes of a session does not depend on what was logged before. -/
theorem session_after (log : Log κ π σ) (happenings : List (Happening σ)) :
    (log.after happenings).session = happenings.foldl meet log.session := by
  induction happenings generalizing log with
  | nil => rfl
  | cons happening rest ih => exact ih (log.next happening)

/-- Whether a log is true of a session that has begun in some world. -/
structure Sound (tools : Toolset κ π σ) (world : σ) (log : Log κ π σ) : Prop where
  sameTools : log.session.tools = tools
  linked : Linked tools .anything ⟨{}, world, []⟩ log.trail log.session.work
  serves : log.session.debounce.Serves log.heard log.started

variable {tools : Toolset κ π σ} {world : σ}

theorem Sound.routed (h : log.Sound tools world) : log.session.work.state.Routed :=
  (h.linked.always (fun work => work.state.Routed) (fun _ => True)
    (fun hwork hstep _ => hstep.routed hwork) (fun _ _ => trivial) State.routed_empty).2

/-- Whatever happens, the timers start one pass for each burst. -/
theorem Sound.serves_next (h : log.Sound tools world) (happening : Happening σ) :
    (log.next happening).session.debounce.Serves (log.next happening).heard (log.next happening).started := by
  have hserves := h.serves
  cases happening with
  | wait milliseconds =>
    have hwait := hserves.advance milliseconds
    rw [← debounce_advance] at hwait
    simpa [Log.next, meet, hears, starts] using hwait
  | change p =>
    cases howner : log.session.work.state.graph.owner? p with
    | none => simpa [Log.next, meet, hears, starts, change_of_none, howner] using hserves
    | some id => simpa [Log.next, meet, hears, starts, change_of_owner, howner] using hserves.request
  | overheard => simpa [Log.next, meet, hears, starts] using hserves.request
  | edit world => simpa [Log.next, meet, hears, starts] using hserves
  | pass => simpa [Log.next, meet, hears, starts, debounce_bundle] using hserves
  | stop => simpa [Log.next, meet, hears, starts, stop] using hserves

/-- Whatever happens, the log is true. -/
theorem Sound.next (h : log.Sound tools world) (happening : Happening σ) :
    (log.next happening).Sound tools world where
  sameTools := (log.session.tools_meet happening).trans h.sameTools
  linked := h.linked.append (h.sameTools ▸ log.session.linked_meet happening)
  serves := h.serves_next happening

theorem Sound.after (h : log.Sound tools world) (happenings : List (Happening σ)) :
    (log.after happenings).Sound tools world := by
  induction happenings generalizing log with
  | nil => exact h
  | cons happening rest ih => exact ih (h.next happening)

/-- Who waits goes on to wait until it is taken. -/
theorem Sound.waits {id : AssetId} (h : log.Sound tools world) (hid : id ∈ log.session.work.state.queue)
    (happenings : List (Happening σ)) : ∃ rest, (log.after happenings).trail = log.trail ++ rest ∧
      Waits id rest (log.after happenings).session.work := by
  induction happenings using List.reverseRecOn with
  | nil => exact ⟨[], (List.append_nil _).symm, .nil hid⟩
  | append_singleton past happening ih =>
    obtain ⟨rest, htrail, hwaits⟩ := ih
    have hnow := h.after past
    rw [after_append]
    refine ⟨rest ++ (log.after past).session.does happening, ?_, ?_⟩
    · show (log.after past).trail ++ _ = _
      rw [htrail, List.append_assoc]
    · exact hwaits.append fun hqueue => waits_meet hnow.routed hqueue happening

/-- The asset that an accepted change concerns waits until it is taken. -/
theorem Sound.waits_of_change {id : AssetId} {p : Path} (h : log.Sound tools world)
    (howner : log.session.work.state.graph.owner? p = some id) (future : List (Happening σ)) :
    ∃ rest, (log.after (.change p :: future)).trail = log.trail ++ rest ∧
      Waits id rest (log.after (.change p :: future)).session.work := by
  have hdoes : log.session.does (.change p) = [⟨.noticed p, (log.session.queueChange p).2.work⟩] := by
    simp [does, howner]
  have hsession : (log.next (.change p)).session =
      { (log.session.queueChange p).2 with debounce := log.session.debounce.request } := change_of_owner howner
  have hid : id ∈ (log.session.queueChange p).2.work.state.queue := by
    have hstep : Step tools .anything log.session.work ⟨.noticed p, (log.session.work.notify p).2⟩ := .noticed p
    apply hstep.queue_of_accepts
    exact ⟨p, rfl, (congrArg (·.owner? p) (log.session.work.notices_notify p).graph).trans howner⟩
  have hchange : Waits id (log.session.does (.change p)) (log.session.queueChange p).2.work := by
    rw [hdoes]
    exact .single hid
  have hqueue : id ∈ (log.next (.change p)).session.work.state.queue := by
    rw [hsession]
    exact hid
  obtain ⟨rest, htrail, hwaits⟩ := (h.next (.change p)).waits hqueue future
  refine ⟨log.session.does (.change p) ++ rest, ?_, hchange.append fun _ => hwaits⟩
  rw [after_cons, htrail, Log.next, List.append_assoc]

end Log

/-- The timers of a session start one pass for each burst of accepted changes, in the wait in which it has come
to be quiet for a window after the last one of them, and no other passes; and time can be cut into waits as one
likes.  A change that concerns no asset leaves no trace.  The asset that an accepted change concerns waits until
it is taken off the queue in a batch.  The same goes for changes that are reported while a pass is working, but
then the pass may unload the asset in the end. -/
theorem passes_of_bursts (settings : Settings) (entry : Path) (types : AssetTypes κ) (packagers : Packagers π)
    (tools : Toolset κ π σ) (world : σ) (happenings : List (Happening σ)) :
    let start := Log.new settings entry types packagers tools world
    let log := start.after happenings
    List.Forall₂ (fun last wait => wait.1 < last + Debounce.window ∧ last + Debounce.window ≤ wait.2)
        (Debounce.settled log.session.debounce.clock log.heard) log.started ∧
      (∀ past a b future, happenings = past ++ .wait a :: .wait b :: future →
        log.session = (start.after (past ++ .wait (a + b) :: future)).session) ∧
      (∀ past p future, happenings = past ++ .change p :: future →
        (start.after past).session.work.state.graph.owner? p = none → log = start.after (past ++ future)) ∧
      (∀ past p future id, happenings = past ++ .change p :: future →
        (start.after past).session.work.state.graph.owner? p = some id →
          ∃ rest, log.trail = (start.after past).trail ++ rest ∧ Waits id rest log.session.work) ∧
      ∀ before moment later id, log.trail = before ++ moment :: later →
        Since (Moment.Accepts id) (fun moment => moment.Takes id ∨ moment.Unloads id) (before ++ [moment]) →
          id ∈ moment.work.state.queue := by
  intro start log
  have hstart : start.Sound tools world := ⟨rfl, .nil _, .nil⟩
  have hlog : log.Sound tools world := hstart.after happenings
  refine ⟨hlog.serves.waits, ?_, ?_, ?_, ?_⟩
  · rintro past a b future rfl
    have hpast := hstart.after past
    show (start.after _).session = _
    simp only [Log.after_append, Log.after_cons, Log.session_after _ future, Log.next, meet,
      advance_advance hpast.serves.keeps]
  · rintro past p future rfl howner
    have hnext : (start.after past).next (.change p) = start.after past := by
      simp [Log.next, meet, change_of_none howner, hears, starts, does, howner]
    show start.after _ = _
    rw [Log.after_append, Log.after_cons, hnext, Log.after_append]
  · rintro past p future id rfl howner
    show ∃ rest, (start.after _).trail = _ ∧ Waits id rest (start.after _).session.work
    rw [Log.after_append]
    exact (hstart.after past).waits_of_change howner future
  · intro before moment later id htrail hsince
    have hlinked := hlog.linked
    rw [htrail] at hlinked
    exact (hlinked.split.1.waits_of_since State.routed_empty hsince).2

/-! ## Two changes of a theme -/

/-- Two changes soon one after another, and between them a change that is of no concern. -/
def themeHappenings : List (Happening Sketch) :=
  [.change ⟨"/sizes.less"⟩, .wait 30, .change ⟨"/elsewhere.less"⟩, .change ⟨"/colors.less"⟩, .wait 60, .wait 60]

/-- The log of the session with the theme from its beginning on. -/
def themeStart : Log Unit Unit Sketch :=
  .new (.ofRequest ⟨"/"⟩ false {}) ⟨"/main.js"⟩ (.ofFallback ()) (.ofFallback ()) themeSketch.tools themeSketch

/-- The log of the session with the theme after the first pass. -/
def themeLog : Log Unit Unit Sketch where
  session := themeSession.rehearsed 6 4
  trail := themeSession.bundleTrail

/-- The first pass is the one that was rehearsed. -/
theorem after_themeStart (happenings : List (Happening Sketch)) :
    themeStart.after (.pass :: happenings) = themeLog.after happenings := by
  have hdepth : themeSession.depth = 6 := by decide +kernel
  have hrehearse : (themeSession.rehearse 6 4).isSome = true := by decide +kernel
  obtain ⟨result, hbundle⟩ := bundle?_rehearsed hrehearse
  have hpass : themeSession.bundle.2 = themeSession.rehearsed 6 4 := by
    unfold bundle
    rw [hdepth, hbundle]
    rfl
  have hnext : themeStart.next .pass = themeLog := by
    rw [Log.next_pass, show themeStart.session = themeSession from rfl, hpass,
      show themeStart.trail = [] from rfl, List.nil_append]
    rfl
  rw [Log.after_cons, hnext]

/-- What is known of the log by computation. -/
theorem plan_themeLog :
    (themeLog.after themeHappenings).heard = [0, 30] ∧
      (themeLog.after themeHappenings).started = [(90, 150)] ∧
      themeLog.session.work.state.graph.owner? ⟨"/sizes.less"⟩ = some ⟨2⟩ ∧
      (themeLog.after (themeHappenings.take 2)).session.work.state.graph.owner? ⟨"/elsewhere.less"⟩ = none := by
  decide +kernel

/-- One pass is started for the two changes, and until then the theme waits. -/
theorem passes_of_bursts_themeStart :
    let log := themeStart.after (.pass :: themeHappenings)
    log.heard = [0, 30] ∧ log.started = [(90, 150)] ∧
      List.Forall₂ (fun last wait => wait.1 < last + Debounce.window ∧ last + Debounce.window ≤ wait.2)
        (Debounce.settled log.session.debounce.clock log.heard) log.started ∧
      log = themeStart.after (.pass :: themeHappenings.take 2 ++ themeHappenings.drop 3) ∧
      ∃ rest, log.trail = (themeStart.after [.pass]).trail ++ rest ∧ Waits ⟨2⟩ rest log.session.work := by
  have hlog := after_themeStart themeHappenings
  obtain ⟨hheard, hstarted, howner, hnone⟩ := plan_themeLog
  have hbursts := passes_of_bursts (.ofRequest ⟨"/"⟩ false {}) ⟨"/main.js"⟩ (.ofFallback ()) (.ofFallback ())
    themeSketch.tools themeSketch (.pass :: themeHappenings)
  dsimp only at hbursts
  rw [← themeStart] at hbursts
  obtain ⟨hserves, -, hignores, hwaits, -⟩ := hbursts
  refine ⟨by rw [hlog, hheard], by rw [hlog, hstarted], hserves, ?_, ?_⟩
  · apply hignores (.pass :: themeHappenings.take 2) ⟨"/elsewhere.less"⟩ (themeHappenings.drop 3) rfl
    rw [after_themeStart]
    exact hnone
  · apply hwaits [.pass] ⟨"/sizes.less"⟩ (themeHappenings.drop 1) ⟨2⟩ rfl
    rw [after_themeStart, show themeLog.after [] = themeLog from rfl]
    exact howner

end Session
end Build
end ModuleBundler
