import TightLists.Proofs.PasteGate
import TightLists.Remote

/-!
# Hosts with a remote fixer

A host that keeps its editor to itself never shows it to its fixer: it applies the
replies to its own buffer.  `Host.Agrees` relates such a host to one that hands its
editor over, and every action keeps the two in agreement: they hold the same text,
selection and setting after each step, and their replies say the same.
-/

namespace TightLists

namespace Host

/-- Both hosts have the same text, the same selection and the same setting. -/
structure Agrees (host : Host) (other : RemoteHost) : Prop where
  text : other.editor.text = host.editor.text
  selection :
    (other.editor.start, other.editor.stop) = (host.editor.start, host.editor.stop)
  autoFix : other.remote.autoFix = host.fixer.autoFix

end Host

/-- What an outcome of a paste is shown as to a host that keeps its editor to itself.  The
kind names the outcome, and only a replaced paste is prevented and comes with its text. -/
inductive PasteOutcome.ShownAs : PasteOutcome → PasteReply → Prop where
  | disabled :
      ShownAs .disabled { kind := "disabled", preventDefault := false, fixed := none }
  | noText :
      ShownAs .noText { kind := "no_text", preventDefault := false, fixed := none }
  | passThrough :
      ShownAs .passThrough { kind := "pass_through", preventDefault := false, fixed := none }
  | replaced (fixed : Text) :
      ShownAs (.replaced fixed)
        { kind := "replaced", preventDefault := true, fixed := some fixed }

/-- The reply of a host says the same as that of one with a remote fixer. -/
inductive HostReply.Mirrors : HostReply → RemoteReply → Prop where
  | done : Mirrors .done .done
  | pasted {outcome : PasteOutcome} {reply : PasteReply} :
      outcome.ShownAs reply → Mirrors (.pasted outcome) (.pasted reply)
  | noteFixed {changed : Bool} {note : Option Text} :
      (note.isSome = true ↔ changed = true) →
      Mirrors (.noteFixed changed) (.noteFixed note)

theorem PasteOutcome.shownAs_reply (outcome : PasteOutcome) :
    outcome.ShownAs outcome.reply := by
  cases outcome with
  | disabled => exact .disabled
  | noText => exact .noText
  | passThrough => exact .passThrough
  | replaced fixed => exact .replaced fixed

namespace PasteFixer

variable {fixer : PasteFixer} {clipboard : Option Text}

theorem outcome_paste_congr (first second : Editor) :
    (fixer.paste clipboard first).outcome = (fixer.paste clipboard second).outcome := by
  simp only [paste]
  split
  · split
    · rfl
    · rfl
    · split <;> rfl
  · rfl

theorem editor_paste_eq_applyPaste (editor : Editor) :
    (fixer.paste clipboard editor).editor =
      RemoteHost.applyPaste (fixer.paste clipboard editor).outcome.reply editor := by
  have treated := fixer.pastes editor clipboard
  generalize (fixer.paste clipboard editor).outcome = outcome at treated ⊢
  generalize (fixer.paste clipboard editor).editor = after at treated ⊢
  cases treated with
  | disabled off => rfl
  | nothing on => rfl
  | empty on => rfl
  | passedThrough on missed => rfl
  | replaced on found => rfl

/-- The fix command looks at nothing in an editor but its text. -/
theorem fixNote_eq (fixer : PasteFixer) (editor : Editor) :
    let note := RemoteFixer.fixNote { fixer := fixer } editor.text
    (fixer.fixNote editor).editor = RemoteHost.applyNote note editor ∧
      (note.isSome = true ↔ (fixer.fixNote editor).changed = true) := by
  by_cases unchanged : editor.text.tighten.text = editor.text
  · simp [fixNote, RemoteFixer.fixNote, Editor.ofText, unchanged, RemoteHost.applyNote]
  · simp [fixNote, RemoteFixer.fixNote, Editor.ofText, unchanged, RemoteHost.applyNote,
      Editor.setText]

end PasteFixer

namespace Host

theorem Agrees.eq {host : Host} {other : RemoteHost} (agree : host.Agrees other) :
    other = { remote := { fixer := host.fixer }, editor := host.editor } := by
  obtain ⟨⟨⟨autoFix⟩⟩, ⟨text, start, stop⟩⟩ := other
  obtain ⟨⟨hostAutoFix⟩, ⟨hostText, hostStart, hostStop⟩⟩ := host
  obtain ⟨sameText, sameSelection, sameSetting⟩ := agree
  obtain rfl : text = hostText := sameText
  obtain ⟨rfl, rfl⟩ : start = hostStart ∧ stop = hostStop := by
    simpa using sameSelection
  obtain rfl : autoFix = hostAutoFix := sameSetting
  rfl

theorem agrees_same (fixer : PasteFixer) (editor : Editor) :
    Agrees { fixer := fixer, editor := editor }
      { remote := { fixer := fixer }, editor := editor } :=
  ⟨rfl, rfl, rfl⟩

/-- One action keeps the hosts in agreement, and their replies say the same. -/
theorem Agrees.perform {host : Host} {other : RemoteHost} (agree : host.Agrees other)
    (action : HostAction) :
    (host.perform action).1.Agrees (other.perform action).1 ∧
      (host.perform action).2.Mirrors (other.perform action).2 := by
  obtain rfl := agree.eq
  cases action with
  | select start stop => exact ⟨agrees_same _ _, .done⟩
  | replaceSelection text => exact ⟨agrees_same _ _, .done⟩
  | setText text => exact ⟨agrees_same _ _, .done⟩
  | setAutoFix enabled => exact ⟨agrees_same _ _, .done⟩
  | paste clipboard =>
      have sameOutcome : (host.fixer.paste clipboard .empty).outcome =
          (host.fixer.paste clipboard host.editor).outcome :=
        PasteFixer.outcome_paste_congr .empty host.editor
      simp only [Host.perform, RemoteHost.perform, RemoteFixer.paste, sameOutcome]
      rw [PasteFixer.editor_paste_eq_applyPaste]
      exact ⟨agrees_same _ _, .pasted (PasteOutcome.shownAs_reply _)⟩
  | fixNote =>
      obtain ⟨sameEditor, sameAnswer⟩ := host.fixer.fixNote_eq host.editor
      simp only [Host.perform, RemoteHost.perform, sameEditor]
      exact ⟨agrees_same _ _, .noteFixed sameAnswer⟩

theorem Agrees.trace {host : Host} {other : RemoteHost} (agree : host.Agrees other)
    (actions : List HostAction) :
    List.Forall₂ (fun first second => first.1.Agrees second.1 ∧ first.2.Mirrors second.2)
      (host.trace actions) (other.trace actions) := by
  induction actions generalizing host other with
  | nil => exact .nil
  | cons action later induction =>
      have first := agree.perform action
      exact .cons first (induction first.1)

/-- Two hosts open the same text with the same setting and go through the same
actions.  One hands its editor to its fixer, the other keeps it and has a remote
fixer.  After every action they agree, and their replies say the same. -/
theorem remoteHost_agrees_after_every_action (text : Text) (autoFix : Bool)
    (actions : List HostAction) :
    List.Forall₂ (fun first second => first.1.Agrees second.1 ∧ first.2.Mirrors second.2)
      ((Host.opening text autoFix).trace actions)
      ((RemoteHost.opening text autoFix).trace actions) := by
  have start : (Host.opening text autoFix).Agrees (RemoteHost.opening text autoFix) :=
    agrees_same _ _
  exact start.trace actions

/-- A paste that is replaced, one for each reason to decline it, and the fix command. -/
theorem remoteHost_agrees_after_replaced_and_declined_pastes :
    let loose : Text := "- x\n\n- y".toList
    let tight : Text := "- x\n- y".toList
    let actions : List HostAction :=
      [.paste (some loose), .paste none, .paste (some "z".toList), .setAutoFix false,
        .paste (some loose), .setText loose, .fixNote]
    let trace := (RemoteHost.opening [] true).trace actions
    List.Forall₂ (fun first second => first.1.Agrees second.1 ∧ first.2.Mirrors second.2)
        ((Host.opening [] true).trace actions) trace ∧
      trace.map (fun performed => performed.2) =
        [.pasted { kind := "replaced", preventDefault := true, fixed := some tight },
          .pasted { kind := "no_text", preventDefault := false, fixed := none },
          .pasted { kind := "pass_through", preventDefault := false, fixed := none },
          .done,
          .pasted { kind := "disabled", preventDefault := false, fixed := none },
          .done, .noteFixed (some tight)] := by
  intro loose tight actions trace
  refine ⟨remoteHost_agrees_after_every_action [] true actions, ?_⟩
  decide +kernel

end Host

end TightLists
