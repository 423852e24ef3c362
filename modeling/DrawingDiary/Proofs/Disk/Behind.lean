import DrawingDiary.Proofs.Disk.Same
import DrawingDiary.Proofs.Disk.Standing

/-!
# Files behind a link

A path to a file ends with a move, so standing still more or less often before it makes no
difference (`Leads.of_moving_last`). Names that lead to a file below a path therefore lead to
it through a link to this path as well (`leads_behind_link`), from wherever the link is.
Such a way follows one link more than the path itself.
-/

namespace DrawingDiary

namespace Path

/-- There are no steps, or the last one leads somewhere else. -/
def EndsMoving (steps : List Step) : Prop := steps.getLast? ≠ some .here

theorem EndsMoving.of_append {first rest : List Step} (h : EndsMoving (first ++ rest)) :
    EndsMoving rest := by
  intro hlast
  exact h (by rw [List.getLast?_append, hlast, Option.some_or])

theorem EndsMoving.tail {step : Step} {rest : List Step} (h : EndsMoving (step :: rest)) :
    EndsMoving rest :=
  @EndsMoving.of_append [step] rest h

theorem EndsMoving.append {rest : List Step} (h : EndsMoving rest) (hrest : rest ≠ [])
    (first : List Step) : EndsMoving (first ++ rest) := by
  rw [EndsMoving, List.getLast?_append, List.getLast?_eq_some_getLast hrest, Option.some_or,
    ← List.getLast?_eq_some_getLast hrest]
  exact h

theorem endsMoving_into (first : List Step) (name : String) :
    EndsMoving (first ++ [.into name]) := by
  rw [EndsMoving, List.getLast?_concat]
  exact fun h => by cases h

theorem EndsMoving.eq_nil {steps : List Step} (h : EndsMoving steps) (hmoves : moving steps = []) :
    steps = [] := by
  by_contra hsome
  have hlast := List.getLast_mem hsome
  have hhere : steps.getLast hsome = .here := by
    simpa using List.filter_eq_nil_iff.mp hmoves _ hlast
  exact h (by rw [List.getLast?_eq_some_getLast hsome, hhere])

theorem PlainName.steps_eq {name : String} (plain : PlainName name) :
    (Path.mk name).steps = [.into name] := by
  rw [Path.steps, Text.splitAll_of_not_mem plain.no_slash, List.map_singleton, plain.step]

theorem steps_append_slash (first rest : String) :
    (Path.mk (first ++ "/" ++ rest)).steps = (Path.mk first).steps ++ (Path.mk rest).steps := by
  have htext : (first ++ "/" ++ rest).toList = first.toList ++ '/' :: rest.toList := by
    simp [String.toList_append]
  rw [steps, htext, Text.splitAll_append_cons, List.map_append]
  rfl

end Path

namespace Disk

open DrawingDiary.Path (Step PlainName EndsMoving moving)

variable {disk : Disk} {root : Tree} {links : Nat} {current start place : Location}
  {steps other : List Step} {p target : Path}

/-- A walk that ends with a move ends there too when it stands still more often or less often
before. -/
theorem Leads.of_moving_last (leads : Leads root true links current steps (.found place))
    (ends : EndsMoving steps) (ends' : EndsMoving other)
    (same : moving other = moving steps) : Leads root true links current other (.found place) := by
  generalize hspot : Spot.found place = spot at leads ⊢
  induction leads generalizing other with
  | stop =>
      obtain rfl := ends'.eq_nil same
      exact .stop
  | here _ _ ih => exact ih ends.tail ends' same hspot
  | up hdirectory _ ih =>
      obtain ⟨heres, rest, rfl, hstill, hrest⟩ := exists_of_moving_eq_cons same
      exact leads_heres hdirectory hstill
        (.up hdirectory (ih ends.tail ends'.of_append.tail hrest hspot))
  | free => cases hspot
  | through hdirectory hshort hchild hplain _ ih =>
      obtain ⟨heres, rest, rfl, hstill, hrest⟩ := exists_of_moving_eq_cons same
      exact leads_heres hdirectory hstill (.through hdirectory hshort hchild hplain
        (ih ends.tail ends'.of_append.tail hrest hspot))
  | last _ _ _ _ hstays => cases hstays
  | @follow _ _ _ _ _ target before _ hdirectory hshort hchild htarget _ hsome hleads ih =>
      obtain ⟨heres, rest, rfl, hstill, hrest⟩ := exists_of_moving_eq_cons same
      have hbefore := ends.tail
      have hafter := ends'.of_append.tail
      refine leads_heres hdirectory hstill
        (.follow hdirectory hshort hchild htarget (fun _ => rfl) hsome ?_)
      -- with nothing left to walk, the way ends with the link's own steps on both sides
      by_cases hnil : before = []
      · subst hnil
        obtain rfl := hafter.eq_nil hrest
        exact hleads
      · have hsomeRest : rest ≠ [] := by
          rintro rfl
          exact hnil (hbefore.eq_nil hrest.symm)
        refine ih (hbefore.append hnil _) (hafter.append hsomeRest _) ?_ hspot
        rw [Path.moving_append, Path.moving_append, hrest]
        rfl

/-- Where a path ends with a name, other steps with the same moves lead there as well. -/
theorem leads_of_resolve (absolute : p.isAbsolute = true) (ends : EndsMoving p.trimmed.steps)
    (h : disk.resolve true p = .ok (.found place)) (ends' : EndsMoving steps)
    (same : moving steps = moving p.trimmed.steps) :
    Leads disk.root true linkLimit [] steps (.found place) := by
  obtain ⟨-, leads⟩ := walkAlong_eq_ok_iff.mp (resolve_eq_found_iff.mp h).1
  rw [Bool.true_or, startSteps, if_pos absolute, List.nil_append] at leads
  exact leads.of_moving_last ends ends' same

/-- What two names lead to below a path, they lead to behind a link to this path. -/
theorem leads_behind_link {children : List (String × Tree)} {link first second : String}
    (hget : IsDirectoryAt disk.root start children)
    (hlink : Tree.lookup link children = some (.link target))
    (short : link.utf8ByteSize ≤ nameLimit) (absolute : target.isAbsolute = true)
    (hfirst : PlainName first) (hsecond : PlainName second)
    (h : disk.resolve true ((target.join first).join second) = .ok (.found place)) :
    Leads disk.root true (linkLimit + 1) start [.into link, .into first, .into second]
      (.found place) := by
  have nonempty := Path.nonempty_of_isAbsolute absolute
  have nonempty' := Path.nonempty_join nonempty first
  have absolute' : ((target.join first).join second).isAbsolute = true := by
    rw [Path.isAbsolute_join nonempty' hsecond, Path.isAbsolute_join nonempty hfirst, absolute]
  obtain ⟨n, hsteps⟩ := Path.steps_join nonempty' hsecond
  have ends : EndsMoving ((target.join first).join second).trimmed.steps := by
    rw [hsteps, ← List.append_assoc]
    exact Path.endsMoving_into _ second
  refine .follow hget short hlink rfl (fun _ => rfl) nonempty ?_
  rw [linkStart, if_pos absolute]
  refine leads_of_resolve absolute' ends h ?_ ?_
  · exact Path.EndsMoving.append (Path.endsMoving_into [.into first] second) (by simp) _
  · rw [Path.moving_steps_join nonempty' hsecond, Path.moving_steps_join nonempty hfirst,
      Path.moving_append, Path.moving_trimmed_steps, List.append_assoc]
    rfl

end Disk

end DrawingDiary
