/-
# Proofs.CommandLine.Session -- a session that ends well

A command is a session: scripts and questions about the files, one after the other, and refusals.  A
session ends well only if each of its parts does, and the files go on from part to part
(`perform_bind`). A part that is a script does what the script does (`perform_run`); a question
changes nothing (`perform_ask`).
-/
import CodeAtlas.CommandLine.Session
import CodeAtlas.Proofs.FileTree.Write

namespace CodeAtlas.CommandLine.Session

set_option autoImplicit false

open FileTree (Script)

variable {α β : Type} {t t' : FileTree}

/-- A session goes on where its first part has ended well. -/
theorem perform_bind {session : Session α} {next : α → Session β} {b : β} :
    (session >>= next).perform t = (.ok b, t') ↔
      ∃ a s, session.perform t = (.ok a, s) ∧ (next a).perform s = (.ok b, t') :=
  Run.run_bind_eq_ok_iff

theorem perform_pure {a b : α} :
    (pure a : Session α).perform t = (.ok b, t') ↔ a = b ∧ t' = t :=
  Run.run_pure_eq_ok_iff

/-- **A script as a part of a session** does what it does. -/
theorem perform_run {script : Script α} {a : α} :
    (run script).perform t = (.ok a, t') ↔ script.perform t = (.ok a, t') := by
  change ((script t).1.mapError Failure.fault, (script t).2) = (Except.ok a, t') ↔
    script t = (Except.ok a, t')
  rcases script t with ⟨f | b, s⟩
  · constructor
    · rintro ⟨⟩
    · rintro ⟨⟩
  · constructor
    · rintro ⟨⟩
      rfl
    · rintro ⟨⟩
      rfl

theorem perform_ask {question : FileTree → Except Fault α} {a : α} :
    (ask question).perform t = (.ok a, t') ↔ question t = .ok a ∧ t' = t :=
  perform_run.trans Script.perform_ask

theorem perform_lift {e : Except Fault α} {a : α} :
    (lift e).perform t = (.ok a, t') ↔ e = .ok a ∧ t' = t :=
  perform_ask

/-- A refusal does not end well. -/
theorem perform_refuse {reason : Text} {a : α} :
    (refuse reason : Session α).perform t ≠ (.ok a, t') := by
  rintro ⟨⟩

end CodeAtlas.CommandLine.Session
