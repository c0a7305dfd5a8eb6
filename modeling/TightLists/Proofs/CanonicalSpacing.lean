import Mathlib.Logic.Relation
import TightLists.Proofs.RemovedLines

/-!
# Tightened texts as canonical forms

Two texts are adjacent when one of them has one more blank line between two
list items than the other.  Adjacent texts become the same when they are
tightened, and every text is joined to its tightened form by adjacent texts.
So tightening picks one text out of each class of texts that are joined so, and
picks it again when it is applied to it.
-/

namespace TightLists

namespace Text

/-- One more blank line stands in `wider`, at a place that has a list item above
it and a list item below it, with nothing but blank lines in between. -/
def InsertsSpacing (text wider : Text) : Prop :=
  ∃ above blank below,
    text.lines = above ++ below ∧
      wider = ofLines (above ++ blank :: below) ∧
      '\n' ∉ blank ∧ Line.isBlank blank = true ∧
      followsItem above = true ∧ leadsToItem below = true

def Adjacent (first second : Text) : Prop :=
  InsertsSpacing first second ∨ InsertsSpacing second first

instance : Std.Symm Adjacent where
  symm _ _ adjacent := adjacent.symm

end Text

/-! ## Adjacent texts -/

theorem leadsToItem_insert {blank : Line} (isBlank : blank.isBlank = true)
    (above below : List Line) :
    leadsToItem (above ++ blank :: below) = leadsToItem (above ++ below) := by
  induction above with
  | nil => rw [List.nil_append, List.nil_append, leadsToItem_cons, if_pos isBlank]
  | cons line above induction =>
      rw [List.cons_append, List.cons_append, leadsToItem_cons, leadsToItem_cons,
        induction]

/-- A blank line more between two list items makes no difference to what is
kept.  The lines `before` have been gone past already. -/
private theorem tightenLines_insert {blank : Line} (isBlank : blank.isBlank = true)
    (before above below : List Line)
    (follows : followsItem (before ++ above) = true)
    (leads : leadsToItem below = true) :
    tightenLines (followsItem before) (above ++ blank :: below) =
      tightenLines (followsItem before) (above ++ below) := by
  induction above generalizing before with
  | nil =>
      rw [List.append_nil] at follows
      rw [List.nil_append, List.nil_append, tightenLines, if_pos isBlank, follows,
        leads]
      rfl
  | cons line above induction =>
      have later := induction (before ++ [line]) (by simpa using follows)
      rw [List.cons_append, List.cons_append, tightenLines_followsItem_cons,
        tightenLines_followsItem_cons, leadsToItem_insert isBlank, later]

namespace Text

theorem lines_ofLines_insert {text : Text} {above below : List Line} {line : Line}
    (split : text.lines = above ++ below) (unbroken : '\n' ∉ line) :
    (ofLines (above ++ line :: below)).lines = above ++ line :: below := by
  refine lines_ofLines (by simp) ?_
  intro other member
  have possible : other = line ∨ other ∈ text.lines := by
    rw [split]
    simpa [or_left_comm] using member
  rcases possible with rfl | present
  · exact unbroken
  · exact newline_notMem_of_mem_lines present

theorem InsertsSpacing.tightened_eq {text wider : Text}
    (inserts : InsertsSpacing text wider) : text.tightened = wider.tightened := by
  obtain ⟨above, blank, below, split, rfl, unbroken, isBlank, follows, leads⟩ := inserts
  rw [tightened_eq_ofLines, tightened_eq_ofLines, lines_ofLines_insert split unbroken,
    split]
  exact congrArg ofLines (tightenLines_insert isBlank [] above below follows leads).symm

theorem tightened_eq_of_chain {first second : Text}
    (chain : Relation.ReflTransGen Adjacent first second) :
    first.tightened = second.tightened := by
  induction chain with
  | refl => rfl
  | tail _ adjacent induction =>
      rcases adjacent with inserts | inserts
      · exact induction.trans inserts.tightened_eq
      · exact induction.trans inserts.tightened_eq.symm

/-! ## The way to the tightened text -/

/-- Below the lines `above`, which have been gone past, blank lines are taken
away one at a time until only the lines to be kept are left. -/
private theorem chain_tightenLines (above rest : List Line)
    (unbroken : ∀ line ∈ above ++ rest, '\n' ∉ line) :
    Relation.ReflTransGen Adjacent (ofLines (above ++ rest))
      (ofLines (above ++ tightenLines (followsItem above) rest)) := by
  induction rest generalizing above with
  | nil => exact .refl
  | cons line rest induction =>
      rw [tightenLines_followsItem_cons]
      split
      · rename_i removed
        simp only [Bool.and_eq_true] at removed
        obtain ⟨⟨isBlank, follows⟩, leads⟩ := removed
        have restUnbroken : ∀ other ∈ above ++ rest, '\n' ∉ other := by
          intro other member
          apply unbroken
          rcases List.mem_append.mp member with up | down
          · exact List.mem_append_left _ up
          · exact List.mem_append_right _ (List.mem_cons_of_mem line down)
        have restLines : (ofLines (above ++ rest)).lines = above ++ rest :=
          lines_ofLines
            (List.append_ne_nil_of_left_ne_nil (ne_nil_of_followsItem follows) rest)
            restUnbroken
        have inserts : InsertsSpacing (ofLines (above ++ rest))
            (ofLines (above ++ line :: rest)) :=
          ⟨above, line, rest, restLines, rfl, unbroken line (by simp), isBlank,
            follows, leads⟩
        have sameFlag : followsItem (above ++ [line]) = followsItem above := by
          rw [followsItem_concat, if_pos isBlank]
        rw [sameFlag]
        exact .head (.inr inserts) (induction above restUnbroken)
      · have later := induction (above ++ [line]) (by simpa using unbroken)
        simpa using later

theorem chain_tightened (text : Text) :
    Relation.ReflTransGen Adjacent text text.tightened := by
  have chain := chain_tightenLines [] text.lines fun _ => newline_notMem_of_mem_lines
  simpa [tightened_eq_ofLines] using chain

/-- Tightening gives the same result exactly for texts that are joined by
adjacent texts.  Its result is one of them, and a second pass has nothing to do
there and says so. -/
theorem tightened_eq_iff_chain (first second : Text) :
    (first.tightened = second.tightened ↔
        Relation.ReflTransGen Adjacent first second) ∧
      first.tightened.tightened = first.tightened ∧
      first.tightened.tighten.collapsedRuns = 0 ∧
      first.tightened.tighten.removedLines = 0 := by
  have idempotent : first.tightened.tightened = first.tightened :=
    (tightened_eq_of_chain (chain_tightened first)).symm
  refine ⟨⟨?_, tightened_eq_of_chain⟩, idempotent,
    statistics_of_tightened_eq_self idempotent⟩
  intro same
  have back : Relation.ReflTransGen Adjacent second.tightened second :=
    Std.Symm.symm _ _ (chain_tightened second)
  exact (chain_tightened first).trans (same ▸ back)

end Text

end TightLists
