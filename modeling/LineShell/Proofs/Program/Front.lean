import LineShell.Proofs.Loop.Account
import LineShell.Proofs.Program.Terminal

namespace LineShell.Program

open HeldLine (transcript)

-- All that a run without a terminal can come to. Its writes are answered one by one: that of the
-- header, those of the session, and that of the newline behind one that nothing ended early.
inductive Plain (launch : Launch) (script : Script) : PlainRun → Prop where
  | unopened {fault : Fault} {left : Script} (refused : script.write = (some fault, left)) :
      Plain launch script ⟨some (.fault fault), [⟨header launch, some fault⟩], [], launch.disk⟩
  | broken {left : Script} {session : Session} {failure : Failure}
      (opened : script.write = (none, left)) (played : Session.run launch left = session)
      (ended : session.failure = some failure) :
      Plain launch script ⟨some failure,
        [⟨header launch, none⟩] ++ session.effects.filterMap Effect.attempt?,
        (session.loading ++ session.saving).flatMap noticeLine, session.disk⟩
  | closed {left last : Script} {session : Session} {outcome : Option Fault}
      (opened : script.write = (none, left)) (played : Session.run launch left = session)
      (ended : session.failure = none) (closed : session.script.write = (outcome, last)) :
      Plain launch script ⟨outcome.map .fault,
        [⟨header launch, none⟩] ++ session.effects.filterMap Effect.attempt? ++ [⟨[.newline], outcome⟩],
        (session.loading ++ session.saving).flatMap noticeLine, session.disk⟩

-- An output that refuses the header ends the program before there is a session, and has
-- received nothing.
theorem refused_header_ends {launch : Launch} {script : Script} {plain : PlainRun} {stream : Stream}
    {fault : Fault} (ran : Plain launch script plain)
    (refused : stream.refusal? (header launch) = some fault) (answers : stream.Answers plain.writings) :
    plain.failure = some (.fault fault) ∧ plain.output = [] ∧ plain.disk = launch.disk := by
  have opened (taken : (⟨header launch, none⟩ : Writing) ∈ plain.writings) : False := by
    cases (answers _ taken).trans refused
  cases ran with
  | @unopened failure _ _ =>
    have same := answers ⟨header launch, some failure⟩ List.mem_cons_self
    cases same.trans refused
    exact ⟨rfl, rfl, rfl⟩
  | broken _ _ _ => exact (opened (by simp)).elim
  | closed _ _ _ _ => exact (opened (by simp)).elim

-- All that the program has for its output, where that takes each text of it.
def texts (launch : Launch) (reads : List Reading) : List Text :=
  [header launch] ++ (Session.loopEffects launch { reads }).filterMap Effect.written? ++ [[.newline]]

end LineShell.Program
