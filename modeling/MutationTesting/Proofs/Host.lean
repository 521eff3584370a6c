import MutationTesting.Host
import MutationTesting.Proofs.Disk.World

/-!
# Hosts as worlds

What happens on a host is something that can happen on a faulty disk, whatever its programs and
its oracle do: a procedure that runs on the host runs on the disk as well (`runs_perform`), and one
that was ended by a signal had come somewhere on it (`reaches_runAlive`). So what holds of all
runs on faulty disks holds of those on hosts.
-/

namespace MutationTesting.Host

open Procedure

variable {α : Type} {launcher : Launcher} {w : World Disk} {p q : Procedure α} {host host' : Host}
  {events : List Event}

/-- A host answers requests as a faulty disk may. -/
theorem faulty_answer (launcher : Launcher) (request : Request) (host : Host) :
  World.faulty request host.disk (answer launcher request host).1
    (answer launcher request host).2.disk
  := by
  cases request with
  | file operation =>
    left
    rfl
  | consult | launch => trivial
  | isInterrupted | clock | print => rfl

/-- If a host answers requests as a disk may, what is reached on the host is reached on the disk. -/
theorem reaches_disk
    (hw : ∀ request host, w request host.disk (answer launcher request host).1
      (answer launcher request host).2.disk)
    (h : Reaches (World.ofAnswer (answer launcher)) p host events q host') :
  Reaches w p host.disk events q host'.disk
  := by
  induction h with
  | refl => apply Reaches.refl
  | @step request next a q events host host₁ host' hanswer _ ih =>
    have hstep := hw request host
    rw [hanswer] at hstep
    apply Reaches.step hstep ih

/-- A procedure runs on a host as it may run on a faulty disk. -/
theorem runs_perform (parser : Parser) (p : Procedure α) (host : Host) :
  Runs World.faulty p host.disk (p.events (answer (Host.launcher parser maxDepth)) host)
    (perform parser p host).1 (perform parser p host).2.disk
  := reaches_disk (faulty_answer _) (runs_run _ p host)

/-- A procedure that is ended by a signal on a host has come somewhere on a faulty disk, and to
its end if it was not. -/
theorem reaches_runAlive (launcher : Launcher) (p : Procedure α) (host : Host) :
  ∃ events rest, Reaches World.faulty p host.disk events rest (runAlive launcher p host).2.disk
    ∧ ∀ value, (runAlive launcher p host).1 = some value → rest = done value
  := by
  induction p generalizing host with
  | done value =>
    use [], done value, .refl
    rintro _ ⟨⟩
    rfl
  | ask request next ih =>
    have hstep := faulty_answer launcher request host
    rw [runAlive]
    generalize answer launcher request host = answered at hstep
    obtain ⟨a, host₁⟩ := answered
    dsimp only at hstep ⊢
    split
    · use [⟨request, a⟩], next a, .step hstep .refl
      rintro _ ⟨⟩
    · obtain ⟨events, rest, hreach, hdone⟩ := ih a host₁
      use ⟨request, a⟩ :: events, rest, .step hstep hreach

end MutationTesting.Host
