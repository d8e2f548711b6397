import GhostText.Host.Start
import GhostText.Proofs.Levels.Performing
import GhostText.Proofs.Wire.Chunks

/-!
# How much is logged decides nothing else

Two runs do the same actions from the same world, and before every action each of them chooses its
own verbosity. The actions are answered alike, the worlds differ in nothing but the verbosity and
the log records, and one list of sayings for every action tells the log records of both.
-/

namespace GhostText

/-- One round of two runs: the verbosity that each of them chooses, and what both then do. -/
structure Round where
  left : Verbosity
  right : Verbosity
  action : Action

/-- All that is said in a run, given what is said in each round once the verbosity is chosen. -/
def saidOn (side : Round → Verbosity) (rounds : List Round) (told : List (List Saying)) :
    List Saying :=
  (rounds.zip told).flatMap fun t => .choose (side t.1) :: t.2

/-- What is noted at any verbosity but log records. -/
def Saying.deed? : Saying → Option Event
  | .event e => if e.isLogged then none else some e
  | _ => none

theorem Verbosity.ofJson_name (v : Verbosity) : Verbosity.ofJson (.str v.name) = v := by
  cases v <;> decide

/-- Whatever the verbosity, what is noted besides log records is the same. -/
theorem filter_noted (v : Verbosity) (said : List Saying) :
    ((noted v said).filter fun e => !e.isLogged) = said.filterMap Saying.deed? := by
  induction said generalizing v with
  | nil => rfl
  | cons s said ih =>
    have hs : ((s.notedAt v).filter fun e => !e.isLogged) = s.deed?.toList := by
      cases s with
      | event e => cases he : e.isLogged <;> simp [Saying.notedAt, Saying.deed?, he]
      | record level text =>
        simp only [Saying.notedAt, Saying.deed?]
        split <;> rfl
      | choose v => rfl
    rw [noted, List.filter_append, ih, hs, List.filterMap_cons]
    cases s.deed? <;> rfl

/-- Of what was said on one side the deeds do not hang on the side. -/
theorem filterMap_saidOn (side : Round → Verbosity) (rounds : List Round)
    (told : List (List Saying)) : (saidOn side rounds told).filterMap Saying.deed? =
      (rounds.zip told).flatMap fun t => t.2.filterMap Saying.deed? := by
  simp only [saidOn, List.filterMap_flatMap]
  rfl

namespace World

/-- The world once the host has chosen a verbosity. -/
def atVerbosity (v : Verbosity) (w : World) : World :=
  (act (.client (.verbosity (.str v.name))) w).2

/-- What the actions of a run are answered, and the world after them, on one side of its rounds. -/
def actsAt (side : Round → Verbosity) : List Round → World → List (Except Fault Answer) × World
  | [], w => ([], w)
  | t :: rounds, w =>
    let r := act t.action (w.atVerbosity (side t))
    let rest := actsAt side rounds r.2
    (r.1 :: rest.1, rest.2)

theorem atVerbosity_under (v v' : Verbosity) (es : List Event) (w : World) :
    (w.under v' es).atVerbosity v = w.under v es := by
  show World.under (Verbosity.ofJson (.str v.name)) es w = _
  rw [Verbosity.ofJson_name]

/-- A run that was begun by one round goes on from what was said in it. -/
theorem since_saidOn (side : Round → Verbosity) (o : Outset) (t : Round) (said : List Saying)
    (rounds : List Round) (told : List (List Saying)) (w : World) :
    w.since o (saidOn side (t :: rounds) (said :: told)) =
      w.since ⟨o.launched, verbosityAfter (side t) said, o.past ++ noted (side t) said⟩
        (saidOn side rounds told) := by
  simp [since, saidOn, noted, verbosityAfter, noted_append, Saying.notedAt, Saying.verbosity]

/-- What two runs have in common after their rounds: the answers, a world, and what was said. -/
structure Alike (o o' : Outset) (rounds : List Round) (told : List (List Saying)) (w : World)
    (r r' : List (Except Fault Answer) × World) : Prop where
  length : told.length = rounds.length
  fits : ∀ said ∈ told, ∀ s ∈ said, s.Fits o.launched
  answers : r'.1 = r.1
  left : r.2 = w.since o (saidOn Round.left rounds told)
  right : r'.2 = w.since o' (saidOn Round.right rounds told)

/-- By induction over the rounds: from one world two runs come to one world, whatever each of them
has noted before. -/
theorem actsAt_since (rounds : List Round) (launched : Bool) (u : World) (v v' : Verbosity)
    (es es' : List Event) (hu : u.startup.isSome = launched) :
    ∃ told w, Alike ⟨launched, v, es⟩ ⟨launched, v', es'⟩ rounds told w
      (actsAt Round.left rounds (u.under v es)) (actsAt Round.right rounds (u.under v' es')) := by
  induction rounds generalizing u v v' es es' with
  | nil =>
    refine ⟨[], u, rfl, by simp, rfl, ?_, ?_⟩ <;>
      simp [actsAt, saidOn, since, noted, verbosityAfter]
  | cons t rounds ih =>
    have hact := (abreast_under t.left t.right es es' u).act t.action
    obtain ⟨u₂, said, hu₂, hfits, hleft, hright⟩ := hact.abreast
    obtain ⟨told, w, h⟩ := ih u₂ (verbosityAfter t.left said) (verbosityAfter t.right said)
      (es ++ noted t.left said) (es' ++ noted t.right said) (hu₂.trans hu)
    refine ⟨said :: told, w, congrArg (· + 1) h.length,
      List.forall_mem_cons.2 ⟨hu ▸ hfits, h.fits⟩, ?_, ?_, ?_⟩ <;>
    simp only [actsAt, atVerbosity_under]
    · rw [hact.answer, hleft, hright]
      exact congrArg _ h.answers
    · rw [hleft]
      exact h.left.trans (since_saidOn Round.left ⟨launched, v, es⟩ t said rounds told w).symm
    · rw [hright]
      exact h.right.trans (since_saidOn Round.right ⟨launched, v', es'⟩ t said rounds told w).symm

end World

end GhostText
