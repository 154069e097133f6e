import LineShell.Front.Terminal
import LineShell.Proofs.Text.Basic

namespace LineShell

namespace HeldLine

-- The text that a call brings, to be printed or to be asked with.
def Call.text : Call → Text
  | .write text => text
  | .flush => []
  | .read prompt => prompt

-- What was written since the last read or flush, once one more call was made.
def Call.since (before : Text) : Call → Text
  | .write text => before ++ text
  | _ => []

def recent (calls : List Call) : Text := calls.foldl Call.since []

-- What is seen of the outputs, printed or asked, in order.
def transcript (outputs : List Output) : Text := outputs.flatMap Output.text

theorem transcript_append (first second : List Output) :
    transcript (first ++ second) = transcript first ++ transcript second :=
  List.flatMap_append

-- All that a write can come to: it prints up to the last newline that there is, or nothing.
inductive Writes (line : HeldLine) (text : Text) : HeldLine × List Output → Prop where
  | holds (short : text = [] ∨ .newline ∉ line.held ++ text) :
      Writes line text ({ line with held := line.held ++ text }, [])
  | prints {before after : Text} (shape : line.held ++ text = before ++ .newline :: after)
      (clean : .newline ∉ after) :
      Writes line text ({ line with held := after }, [.printed (before ++ [.newline])])

theorem write_sound (line : HeldLine) (text : Text) : Writes line text (line.write text) := by
  unfold write
  split
  · rename_i empty
    have same : line = { line with held := line.held ++ text } := by rw [empty, List.append_nil]
    have holds : Writes line text ({ line with held := line.held ++ text }, []) := .holds (.inl empty)
    rwa [← same] at holds
  · dsimp only
    split
    · rename_i whole
      exact .holds (.inr (Text.cutLast?_none whole))
    · rename_i cut
      obtain ⟨shape, clean⟩ := Text.cutLast?_some cut
      exact .prints shape clean

theorem flush_eq (line : HeldLine) :
    (line.flush).1.held = [] ∧ transcript (line.flush).2 = line.held := by
  unfold flush
  split
  · rename_i empty
    exact ⟨empty, empty.symm⟩
  · exact ⟨rfl, List.append_nil _⟩

-- A call moves text from what is held to what is seen, and brings its own text behind it.
theorem apply_conserves (line : HeldLine) (call : Call) :
    transcript (line.apply call).2 ++ (line.apply call).1.held = line.held ++ call.text := by
  cases call with
  | write text =>
    change transcript (line.write text).2 ++ (line.write text).1.held = line.held ++ text
    have written := write_sound line text
    generalize line.write text = result at written ⊢
    cases written with
    | holds _ => rfl
    | prints shape _ =>
      rw [shape]
      simp [transcript, Output.text]
  | flush =>
    obtain ⟨empty, seen⟩ := line.flush_eq
    change transcript (line.flush).2 ++ (line.flush).1.held = line.held ++ []
    rw [seen, empty]
  | read prompt => simp [apply, read, transcript, Output.text, Call.text]

theorem run_conserves (line : HeldLine) (calls : List Call) :
    transcript (line.run calls).2 ++ (line.run calls).1.held = line.held ++ calls.flatMap Call.text := by
  induction calls generalizing line with
  | nil => exact (List.append_nil _).symm
  | cons call rest ih =>
    calc transcript (line.run (call :: rest)).2 ++ (line.run (call :: rest)).1.held
        = transcript (line.apply call).2 ++ (transcript ((line.apply call).1.run rest).2 ++
            ((line.apply call).1.run rest).1.held) := by
          rw [run, transcript_append, List.append_assoc]
      _ = (transcript (line.apply call).2 ++ (line.apply call).1.held) ++ rest.flatMap Call.text := by
          rw [ih, List.append_assoc]
      _ = line.held ++ (call :: rest).flatMap Call.text := by
          rw [apply_conserves, List.append_assoc, List.flatMap_cons]

-- What is held is the unfinished line of what was written last: no call leaves anything else.
theorem apply_held {line : HeldLine} {written : Text}
    (holds : line.held = Text.afterLast .newline written) (call : Call) :
    (line.apply call).1.held = Text.afterLast .newline (call.since written) := by
  cases call with
  | write text =>
    change (line.write text).1.held = Text.afterLast .newline (written ++ text)
    have whole := Text.afterLast_append .newline written text
    rw [← holds] at whole
    have wrote := write_sound line text
    generalize line.write text = result at wrote ⊢
    cases wrote with
    | holds short =>
      have clean : .newline ∉ line.held ++ text := by
        rcases short with empty | clean
        · rw [empty, List.append_nil, holds]
          exact Text.notMem_afterLast _ _
        · exact clean
      exact (Text.afterLast_clean clean).symm.trans whole
    | prints shape clean =>
      rw [shape, Text.afterLast_append_mark clean] at whole
      exact whole
  | flush => exact line.flush_eq.1
  | read prompt => rfl

theorem run_held {line : HeldLine} {written : Text}
    (holds : line.held = Text.afterLast .newline written) (calls : List Call) :
    (line.run calls).1.held = Text.afterLast .newline (calls.foldl Call.since written) := by
  induction calls generalizing line written with
  | nil => exact holds
  | cons call rest ih => exact ih (apply_held holds call)

end HeldLine

namespace Terminal

open HeldLine (Call Output transcript recent)

def after (terminal : Terminal) (calls : List Call) : Terminal :=
  calls.foldl (fun terminal call => (terminal.perform call).terminal) terminal

def outputs (terminal : Terminal) (calls : List Call) : List Output :=
  (terminal.performAll calls).flatMap Reply.outputs

-- What the terminal answers is nothing to its line.
theorem perform_line (terminal : Terminal) (call : Call) :
    ((terminal.perform call).terminal.line, (terminal.perform call).outputs) =
      terminal.line.apply call := by
  cases call <;> rfl

theorem performAll_line (terminal : Terminal) (calls : List Call) :
    ((terminal.after calls).line, terminal.outputs calls) = terminal.line.run calls := by
  induction calls generalizing terminal with
  | nil => rfl
  | cons call rest ih =>
    rw [HeldLine.run, ← perform_line]
    dsimp only
    rw [← ih]
    rfl

-- After every sequence of calls, whatever the reads were answered: all text that was brought
-- has been seen, but for the line that is held. That line is the last one written since the
-- last read or flush, and unfinished; a write prints whole lines only, and a read asks with
-- the line that is held.
theorem calls_conserve_text (answers : List Reading) (calls : List Call) :
    let terminal := Terminal.after { answers } calls
    transcript (Terminal.outputs { answers } calls) ++ terminal.line.held = calls.flatMap Call.text ∧
      .newline ∉ terminal.line.held ∧
      (∀ text, ∀ output ∈ (terminal.perform (.write text)).outputs,
        ∃ body, output = .printed (body ++ [.newline])) ∧
      ∀ prompt, (terminal.perform (.read prompt)).outputs =
        [.asked (Text.afterLast .newline (recent calls) ++ prompt)] := by
  intro terminal
  have same := performAll_line { answers } calls
  have line : terminal.line = (HeldLine.run {} calls).1 := congrArg Prod.fst same
  have seen : Terminal.outputs { answers } calls = (HeldLine.run {} calls).2 := congrArg Prod.snd same
  have held : terminal.line.held = Text.afterLast .newline (recent calls) := by
    rw [line]
    exact HeldLine.run_held rfl calls
  refine ⟨?_, ?_, ?_, ?_⟩
  · rw [seen, line, HeldLine.run_conserves]
    rfl
  · rw [held]
    exact Text.notMem_afterLast _ _
  · intro text output present
    have printed : output ∈ (terminal.line.write text).2 := present
    have wrote := HeldLine.write_sound terminal.line text
    generalize terminal.line.write text = result at wrote printed
    cases wrote with
    | holds _ => cases printed
    | prints _ _ =>
      cases List.mem_singleton.mp printed
      exact ⟨_, rfl⟩
  · intro prompt
    rw [← held]
    rfl

end Terminal

end LineShell
