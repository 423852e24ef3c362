import DrawingDiary.Proofs.Disk.Kept

/-!
# Walks on a disk that changes

`Leads` takes a walk apart into its steps, one rule for each kind of step, and
`walk_eq_ok_iff` says that it is the walk. What is known of walks is then shown by
induction on these steps. A walk only looks at the places that `passedBy` lists, so it
ends where it ended before on every later disk that keeps these places
(`Leads.of_keptOn`). Where a walk ended at a free name, it gets to this name on every
disk that has grown since (`walk_of_grown`), and a walk that ended at a directory goes on
from there when there are more steps (`walk_append`).
-/

namespace DrawingDiary

/-- Where a link leads; nothing else leads anywhere. -/
def Tree.linkTarget? : Tree → Option Path
  | .link target => some target
  | _ => none

theorem Tree.linkTarget?_eq_of_face {t t' : Tree} (h : t'.face = t.face) :
    t'.linkTarget? = t.linkTarget? := by
  cases t <;> cases t' <;> cases h <;> rfl

theorem Tree.eq_link_of_linkTarget? {t : Tree} {target : Path} (h : t.linkTarget? = some target) :
    t = .link target := by
  cases t with
  | link other => exact congrArg Tree.link (Option.some.inj h)
  | file | directory => cases h

namespace Disk

open DrawingDiary.Path (Step)

/-- Where a walk goes on behind a link in a directory. -/
def linkStart (current : Location) (target : Path) : Location :=
  if target.isAbsolute then [] else current

/-- The tree at the location is a directory with these children. -/
abbrev IsDirectoryAt (root : Tree) (place : Location) (children : List (String × Tree)) : Prop :=
  root.get? place = some (.directory children)

/-- A walk that ends at a spot, step by step, with the number of links that it may still
follow. -/
inductive Leads (root : Tree) (followLast : Bool) :
    Nat → Location → List Step → Spot → Prop where
  | stop {links : Nat} {current : Location} :
      Leads root followLast links current [] (.found current)
  | here {links : Nat} {current : Location} {children : List (String × Tree)}
      {rest : List Step} {spot : Spot} :
      IsDirectoryAt root current children → Leads root followLast links current rest spot →
      Leads root followLast links current (.here :: rest) spot
  | up {links : Nat} {current : Location} {children : List (String × Tree)}
      {rest : List Step} {spot : Spot} :
      IsDirectoryAt root current children →
      Leads root followLast links current.dropLast rest spot →
      Leads root followLast links current (.up :: rest) spot
  | free {links : Nat} {current : Location} {children : List (String × Tree)}
      {name : String} :
      IsDirectoryAt root current children → name.utf8ByteSize ≤ nameLimit →
      Tree.lookup name children = none →
      Leads root followLast links current [.into name] (.vacant current name)
  | through {links : Nat} {current : Location} {children : List (String × Tree)}
      {name : String} {child : Tree} {rest : List Step} {spot : Spot} :
      IsDirectoryAt root current children → name.utf8ByteSize ≤ nameLimit →
      Tree.lookup name children = some child → child.linkTarget? = none →
      Leads root followLast links (current ++ [name]) rest spot →
      Leads root followLast links current (.into name :: rest) spot
  | last {links : Nat} {current : Location} {children : List (String × Tree)}
      {name : String} {child : Tree} {target : Path} :
      IsDirectoryAt root current children → name.utf8ByteSize ≤ nameLimit →
      Tree.lookup name children = some child → child.linkTarget? = some target →
      followLast = false →
      Leads root followLast links current [.into name] (.found (current ++ [name]))
  | follow {links : Nat} {current : Location} {children : List (String × Tree)}
      {name : String} {child : Tree} {target : Path} {rest : List Step} {spot : Spot} :
      IsDirectoryAt root current children → name.utf8ByteSize ≤ nameLimit →
      Tree.lookup name children = some child → child.linkTarget? = some target →
      (rest = [] → followLast = true) → target.text.isEmpty = false →
      Leads root followLast links (linkStart current target) (target.steps ++ rest) spot →
      Leads root followLast (links + 1) current (.into name :: rest) spot

section Equations

variable {root : Tree} {followLast : Bool} {current : Location}
  {children : List (String × Tree)} {name : String} {child : Tree} {rest : List Step}

/-- How a walk goes on behind a link. -/
def behindLink (root : Tree) (followLast : Bool) :
    Nat → Location → List Step → Except DiskError Spot
  | 0 => fun _ _ => .error .tooManyLinks
  | links + 1 => walk root followLast links

theorem walk_eq_walkWith (links : Nat) :
    walk root followLast links = walkWith root followLast (behindLink root followLast links) := by
  cases links <;> rfl

theorem walk_nil (links : Nat) : walk root followLast links current [] = .ok (.found current) := by
  rw [walk_eq_walkWith]
  rfl

theorem walk_here (hget : IsDirectoryAt root current children) (links : Nat) :
    walk root followLast links current (.here :: rest) =
      walk root followLast links current rest := by
  rw [walk_eq_walkWith]
  simp [walkWith, hget]

theorem walk_up (hget : IsDirectoryAt root current children) (links : Nat) :
    walk root followLast links current (.up :: rest) =
      walk root followLast links current.dropLast rest := by
  rw [walk_eq_walkWith]
  simp [walkWith, hget]

theorem walk_into (hget : IsDirectoryAt root current children) (links : Nat) :
    walk root followLast links current (.into name :: rest) =
      if nameLimit < name.utf8ByteSize then .error .nameTooLong
      else match Tree.lookup name children with
      | none => if rest.isEmpty then .ok (.vacant current name) else .error .notFound
      | some child =>
        match child.linkTarget? with
        | some target =>
          if rest.isEmpty && !followLast then .ok (.found (current ++ [name]))
          else if target.text.isEmpty then .error .notFound
          else behindLink root followLast links (linkStart current target)
            (target.steps ++ rest)
        | none => walk root followLast links (current ++ [name]) rest := by
  rw [walk_eq_walkWith]
  simp only [walkWith, hget]
  cases Tree.lookup name children with
  | none => rfl
  | some child => cases child <;> rfl

theorem exists_directory {links : Nat} {step : Step} {spot : Spot}
    (h : walk root followLast links current (step :: rest) = .ok spot) :
    ∃ children, IsDirectoryAt root current children := by
  rw [walk_eq_walkWith, walkWith] at h
  split at h
  next children hget => exact ⟨children, hget⟩
  · cases h
  · cases h

theorem walk_through (hget : IsDirectoryAt root current children)
    (hshort : name.utf8ByteSize ≤ nameLimit) (hchild : Tree.lookup name children = some child)
    (hplain : child.linkTarget? = none) (links : Nat) :
    walk root followLast links current (.into name :: rest) =
      walk root followLast links (current ++ [name]) rest := by
  rw [walk_into hget, if_neg (Nat.not_lt.mpr hshort)]
  simp only [hchild, hplain]

theorem walk_follow (hget : IsDirectoryAt root current children)
    (hshort : name.utf8ByteSize ≤ nameLimit) (hchild : Tree.lookup name children = some child)
    {target : Path} (htarget : child.linkTarget? = some target)
    (hgoes : rest = [] → followLast = true) (hsome : target.text.isEmpty = false)
    (links : Nat) :
    walk root followLast (links + 1) current (.into name :: rest) =
      walk root followLast links (linkStart current target) (target.steps ++ rest) := by
  have hfollow : (rest.isEmpty && !followLast) = false := by
    cases rest with
    | nil => simp [hgoes rfl]
    | cons => rfl
  rw [walk_into hget, if_neg (Nat.not_lt.mpr hshort)]
  simp [hchild, htarget, hfollow, hsome, behindLink]

/-- A last step to a name finds what stands there, unless it is a link to be followed. -/
theorem walk_last (hget : IsDirectoryAt root current children)
    (hshort : name.utf8ByteSize ≤ nameLimit) (hchild : Tree.lookup name children = some child)
    (hstays : followLast = true → child.linkTarget? = none) (links : Nat) :
    walk root followLast links current [.into name] = .ok (.found (current ++ [name])) := by
  rw [walk_into hget, if_neg (Nat.not_lt.mpr hshort)]
  simp only [hchild]
  cases htarget : child.linkTarget? with
  | none => exact walk_nil links
  | some target =>
      cases followLast with
      | false => rfl
      | true =>
          rw [hstays rfl] at htarget
          cases htarget

end Equations

section Steps

variable {root : Tree} {followLast : Bool}

theorem Leads.walk_eq {links : Nat} {current : Location} {steps : List Step} {spot : Spot}
    (h : Leads root followLast links current steps spot) :
    walk root followLast links current steps = .ok spot := by
  induction h with
  | stop => exact walk_nil _
  | here hget _ ih => rw [walk_here hget, ih]
  | up hget _ ih => rw [walk_up hget, ih]
  | free hget hshort hchild =>
      rw [walk_into hget, if_neg (Nat.not_lt.mpr hshort)]
      simp only [hchild]
      rfl
  | through hget hshort hchild hplain _ ih => rw [walk_through hget hshort hchild hplain, ih]
  | last hget hshort hchild htarget hstays =>
      exact walk_last hget hshort hchild (fun hfollow => by simp [hstays] at hfollow) _
  | follow hget hshort hchild htarget hgoes hsome _ ih =>
      rw [walk_follow hget hshort hchild htarget hgoes hsome, ih]

/-- What a walk does at a name is one of the rules, given that the rules say what it does
beyond the name and behind a link. -/
theorem leads_of_walk_into {links : Nat} {current : Location} {children : List (String × Tree)}
    {name : String} {rest : List Step} {spot : Spot} (hget : IsDirectoryAt root current children)
    (hbeyond : walk root followLast links (current ++ [name]) rest = .ok spot →
      Leads root followLast links (current ++ [name]) rest spot)
    (hbehind : ∀ fewer, links = fewer + 1 → ∀ current steps,
      walk root followLast fewer current steps = .ok spot →
      Leads root followLast fewer current steps spot)
    (h : walk root followLast links current (.into name :: rest) = .ok spot) :
    Leads root followLast links current (.into name :: rest) spot := by
  rw [walk_into hget] at h
  split at h
  · cases h
  next hlong =>
    have hshort := Nat.le_of_not_lt hlong
    cases hchild : Tree.lookup name children with
    | none =>
        simp only [hchild] at h
        cases rest with
        | nil =>
            cases h
            exact .free hget hshort hchild
        | cons => cases h
    | some child =>
        cases htarget : child.linkTarget? with
        | none =>
            simp only [hchild, htarget] at h
            exact .through hget hshort hchild htarget (hbeyond h)
        | some target =>
            simp only [hchild, htarget] at h
            split at h
            next hlast =>
              simp only [Bool.and_eq_true, List.isEmpty_iff, Bool.not_eq_true'] at hlast
              obtain ⟨rfl, hstays⟩ := hlast
              cases h
              exact .last hget hshort hchild htarget hstays
            next hgoes =>
              split at h
              · cases h
              next hsome =>
                cases links with
                | zero => cases h
                | succ fewer =>
                    refine .follow hget hshort hchild htarget ?_ (by simpa using hsome)
                      (hbehind fewer rfl _ _ h)
                    rintro rfl
                    simpa using hgoes

theorem leads_of_walk_of_behind {links : Nat} {spot : Spot}
    (hbehind : ∀ fewer, links = fewer + 1 → ∀ current steps,
      walk root followLast fewer current steps = .ok spot →
      Leads root followLast fewer current steps spot)
    {current : Location} {steps : List Step}
    (h : walk root followLast links current steps = .ok spot) :
    Leads root followLast links current steps spot := by
  induction steps generalizing current with
  | nil =>
      rw [walk_nil] at h
      cases h
      exact .stop
  | cons step rest ih =>
      obtain ⟨children, hget⟩ := exists_directory h
      cases step with
      | here =>
          rw [walk_here hget] at h
          exact .here hget (ih h)
      | up =>
          rw [walk_up hget] at h
          exact .up hget (ih h)
      | into name => exact leads_of_walk_into hget ih hbehind h

theorem walk_eq_ok_iff {links : Nat} {current : Location} {steps : List Step} {spot : Spot} :
    walk root followLast links current steps = .ok spot ↔
      Leads root followLast links current steps spot := by
  refine ⟨fun h => ?_, Leads.walk_eq⟩
  induction links generalizing current steps with
  | zero => exact leads_of_walk_of_behind (fun _ habsurd => by cases habsurd) h
  | succ links ih =>
      refine leads_of_walk_of_behind ?_ h
      rintro fewer ⟨⟩ current steps hrest
      exact ih hrest

/-- A last step to a name in a directory ends at the name when it is free, and else at what
stands there, unless this is a link that is to be followed. -/
theorem cases_of_walk_last {links : Nat} {current : Location} {children : List (String × Tree)}
    {name : String} {spot : Spot} (hget : IsDirectoryAt root current children)
    (h : walk root followLast links current [.into name] = .ok spot) :
    name.utf8ByteSize ≤ nameLimit ∧
      ((Tree.lookup name children = none ∧ spot = .vacant current name) ∨
        ((∃ child, Tree.lookup name children = some child) ∧
          spot = .found (current ++ [name])) ∨
        (followLast = true ∧ ∃ target, Tree.lookup name children = some (.link target))) := by
  have same {others : List (String × Tree)} (hother : IsDirectoryAt root current others) :
      others = children := by
    cases hget.symm.trans hother
    rfl
  cases walk_eq_ok_iff.mp h with
  | free hother hshort hchild =>
      obtain rfl := same hother
      exact ⟨hshort, .inl ⟨hchild, rfl⟩⟩
  | through hother hshort hchild _ hrest =>
      obtain rfl := same hother
      cases hrest
      exact ⟨hshort, .inr (.inl ⟨⟨_, hchild⟩, rfl⟩)⟩
  | last hother hshort hchild =>
      obtain rfl := same hother
      exact ⟨hshort, .inr (.inl ⟨⟨_, hchild⟩, rfl⟩)⟩
  | follow hother hshort hchild htarget hgoes =>
      obtain rfl := same hother
      obtain rfl := Tree.eq_link_of_linkTarget? htarget
      exact ⟨hshort, .inr (.inr ⟨hgoes rfl, _, hchild⟩)⟩

end Steps

/-- The places a walk comes by in one stretch, with a given list of those behind a
link. -/
def passedWith (root : Tree) (followLast : Bool)
    (behind : Location → List Step → List Location) : Location → List Step → List Location
  | _, [] => []
  | current, step :: rest =>
    match root.get? current with
    | some (.directory children) =>
      match step with
      | .here => passedWith root followLast behind current rest
      | .up => passedWith root followLast behind current.dropLast rest
      | .into name =>
        match Tree.lookup name children with
        | none => []
        | some child => (current ++ [name]) ::
          match child.linkTarget? with
          | some target =>
            if rest.isEmpty && !followLast then []
            else behind (linkStart current target) (target.steps ++ rest)
          | none => passedWith root followLast behind (current ++ [name]) rest
    | _ => []

/-- The places a walk comes by that may follow the given number of links. -/
def passedBy (root : Tree) (followLast : Bool) : Nat → Location → List Step → List Location
  | 0 => passedWith root followLast fun _ _ => []
  | links + 1 => passedWith root followLast (passedBy root followLast links)

section PassedEquations

variable {root : Tree} {followLast : Bool} {current : Location}
  {children : List (String × Tree)} {name : String} {child : Tree} {rest : List Step}

theorem passedBy_eq_passedWith (root : Tree) (followLast : Bool) (links : Nat) : ∃ behind,
    passedBy root followLast links = passedWith root followLast behind := by
  cases links <;> exact ⟨_, rfl⟩

theorem passedBy_here (hget : IsDirectoryAt root current children) (links : Nat) :
    passedBy root followLast links current (.here :: rest) =
      passedBy root followLast links current rest := by
  obtain ⟨behind, heq⟩ := passedBy_eq_passedWith root followLast links
  rw [heq]
  simp [passedWith, hget]

theorem passedBy_up (hget : IsDirectoryAt root current children) (links : Nat) :
    passedBy root followLast links current (.up :: rest) =
      passedBy root followLast links current.dropLast rest := by
  obtain ⟨behind, heq⟩ := passedBy_eq_passedWith root followLast links
  rw [heq]
  simp [passedWith, hget]

theorem passedBy_through (hget : IsDirectoryAt root current children)
    (hchild : Tree.lookup name children = some child) (hplain : child.linkTarget? = none)
    (links : Nat) :
    passedBy root followLast links current (.into name :: rest) =
      (current ++ [name]) :: passedBy root followLast links (current ++ [name]) rest := by
  obtain ⟨behind, heq⟩ := passedBy_eq_passedWith root followLast links
  rw [heq]
  simp [passedWith, hget, hchild, hplain]

theorem passedBy_last (hget : IsDirectoryAt root current children)
    (hchild : Tree.lookup name children = some child) (links : Nat) :
    current ++ [name] ∈ passedBy root followLast links current (.into name :: rest) := by
  obtain ⟨behind, heq⟩ := passedBy_eq_passedWith root followLast links
  rw [heq]
  simp [passedWith, hget, hchild]

theorem passedBy_follow (hget : IsDirectoryAt root current children)
    (hchild : Tree.lookup name children = some child) {target : Path}
    (htarget : child.linkTarget? = some target) (hgoes : rest = [] → followLast = true)
    (links : Nat) :
    passedBy root followLast (links + 1) current (.into name :: rest) =
      (current ++ [name]) ::
        passedBy root followLast links (linkStart current target) (target.steps ++ rest) := by
  have hfollow : ¬ (rest = [] ∧ followLast = false) := by
    rintro ⟨hrest, hstays⟩
    simp [hgoes hrest] at hstays
  simp [passedBy, passedWith, hget, hchild, htarget, hfollow]

end PassedEquations

/-- The places that the way along a path comes by: the root, and every file, link and
directory that the way goes through or ends at. -/
def passed (disk : Disk) (followLast : Bool) (p : Path) : List Location :=
  [] :: passedBy disk.root followLast linkLimit [] (disk.startSteps p ++ p.trimmed.steps)

section Kept

variable {kept : Location → Prop} {before after : Disk} {followLast : Bool}

/-- Whatever a kept place is below is kept. -/
def Closed (kept : Location → Prop) : Prop :=
  ∀ {place below : Location}, place <+: below → kept below → kept place

theorem Closed.linkStart (closed : Closed kept) {current : Location} (hkept : kept current)
    (target : Path) : kept (linkStart current target) := by
  unfold Disk.linkStart
  split
  · exact closed List.nil_prefix hkept
  · exact hkept

theorem KeptOn.directory (h : KeptOn kept before after) {place : Location} (hkept : kept place)
    {children : List (String × Tree)} (hget : IsDirectoryAt before.root place children) :
    ∃ children', IsDirectoryAt after.root place children' := by
  obtain ⟨t', hget', hface⟩ := h.stands hkept hget
  obtain ⟨children', rfl⟩ := Tree.exists_directory_of_face hface
  exact ⟨children', hget'⟩

theorem KeptOn.lookup (h : KeptOn kept before after) {place : Location} {name : String}
    {children children' : List (String × Tree)} {child : Tree} (hkept : kept (place ++ [name]))
    (hget : IsDirectoryAt before.root place children)
    (hget' : IsDirectoryAt after.root place children')
    (hchild : Tree.lookup name children = some child) :
    ∃ child', Tree.lookup name children' = some child' ∧
      child'.linkTarget? = child.linkTarget? := by
  rw [← Tree.get?_snoc hget] at hchild
  obtain ⟨child', hchild', hface⟩ := h.stands hkept hchild
  rw [at?, Tree.get?_snoc hget'] at hchild'
  exact ⟨child', hchild', Tree.linkTarget?_eq_of_face hface⟩

/-- A walk ends where it ended before as long as the places it comes by are kept. -/
theorem Leads.of_keptOn (closed : Closed kept) (h : KeptOn kept before after) {links : Nat}
    {current place : Location} {steps : List Step}
    (leads : Leads before.root followLast links current steps (.found place))
    (hcurrent : kept current)
    (hpassed : ∀ passed ∈ passedBy before.root followLast links current steps, kept passed) :
    Leads after.root followLast links current steps (.found place) := by
  generalize hspot : Spot.found place = spot at leads ⊢
  induction leads with
  | stop => exact .stop
  | here hget _ ih =>
      obtain ⟨children', hget'⟩ := h.directory hcurrent hget
      rw [passedBy_here hget] at hpassed
      exact .here hget' (ih hcurrent hpassed hspot)
  | up hget _ ih =>
      obtain ⟨children', hget'⟩ := h.directory hcurrent hget
      rw [passedBy_up hget] at hpassed
      exact .up hget' (ih (closed (List.dropLast_prefix _) hcurrent) hpassed hspot)
  | free => cases hspot
  | through hget hshort hchild hplain _ ih =>
      obtain ⟨children', hget'⟩ := h.directory hcurrent hget
      rw [passedBy_through hget hchild hplain] at hpassed
      obtain ⟨hhere, hthere⟩ := List.forall_mem_cons.mp hpassed
      obtain ⟨child', hchild', hsame⟩ := h.lookup hhere hget hget' hchild
      exact .through hget' hshort hchild' (hsame.trans hplain)
        (ih hhere hthere hspot)
  | last hget hshort hchild htarget hstays =>
      obtain ⟨children', hget'⟩ := h.directory hcurrent hget
      have hhere := hpassed _ (passedBy_last hget hchild _)
      obtain ⟨child', hchild', hsame⟩ := h.lookup hhere hget hget' hchild
      exact .last hget' hshort hchild' (hsame.trans htarget) hstays
  | follow hget hshort hchild htarget hgoes hsome _ ih =>
      obtain ⟨children', hget'⟩ := h.directory hcurrent hget
      rw [passedBy_follow hget hchild htarget hgoes] at hpassed
      obtain ⟨hhere, hthere⟩ := List.forall_mem_cons.mp hpassed
      obtain ⟨child', hchild', hsame⟩ := h.lookup hhere hget hget' hchild
      exact .follow hget' hshort hchild' (hsame.trans htarget) hgoes hsome
        (ih (closed.linkStart hcurrent _) hthere hspot)

end Kept

section Grown

variable {before after : Disk} {root : Tree} {followLast : Bool} {links : Nat}
  {current parent : Location} {name : String} {steps : List Step}

/-- A walk only ends at a free name of an allowed length in a directory. -/
theorem Leads.vacant (leads : Leads root followLast links current steps (.vacant parent name)) :
    ∃ children, IsDirectoryAt root parent children ∧ name.utf8ByteSize ≤ nameLimit ∧
      Tree.lookup name children = none := by
  generalize hspot : Spot.vacant parent name = spot at leads
  induction leads with
  | stop => cases hspot
  | here _ _ ih => exact ih hspot
  | up _ _ ih => exact ih hspot
  | free hget hshort hchild =>
      cases hspot
      exact ⟨_, hget, hshort, hchild⟩
  | through _ _ _ _ _ ih => exact ih hspot
  | last => cases hspot
  | follow _ _ _ _ _ _ _ ih => exact ih hspot

/-- Where a walk ended at a free name, it gets to this name on any disk that has grown
since, whatever stands there now. -/
theorem Leads.walk_of_grown (h : Grown before after)
    (leads : Leads before.root followLast links current steps (.vacant parent name)) :
    ∃ left, walk after.root followLast links current steps =
      walk after.root followLast left parent [.into name] := by
  generalize hspot : Spot.vacant parent name = spot at leads
  induction leads with
  | stop => cases hspot
  | here hget _ ih =>
      obtain ⟨children', hget'⟩ := h.directory trivial hget
      rw [walk_here hget']
      exact ih hspot
  | up hget _ ih =>
      obtain ⟨children', hget'⟩ := h.directory trivial hget
      rw [walk_up hget']
      exact ih hspot
  | free =>
      cases hspot
      exact ⟨_, rfl⟩
  | through hget hshort hchild hplain _ ih =>
      obtain ⟨children', hget'⟩ := h.directory trivial hget
      obtain ⟨child', hchild', hsame⟩ := h.lookup trivial hget hget' hchild
      rw [walk_through hget' hshort hchild' (hsame.trans hplain)]
      exact ih hspot
  | last => cases hspot
  | follow hget hshort hchild htarget hgoes hsome _ ih =>
      obtain ⟨children', hget'⟩ := h.directory trivial hget
      obtain ⟨child', hchild', hsame⟩ := h.lookup trivial hget hget' hchild
      rw [walk_follow hget' hshort hchild' (hsame.trans htarget) hgoes hsome]
      exact ih hspot

/-- What was put at the free name at which a walk ended is found by the same walk, unless
it is a link that the walk follows. -/
theorem Leads.found_of_grown (h : Grown before after)
    (leads : Leads before.root followLast links current steps (.vacant parent name))
    {t : Tree} (hput : after.at? (parent ++ [name]) = some t)
    (hstays : followLast = true → t.linkTarget? = none) :
    walk after.root followLast links current steps = .ok (.found (parent ++ [name])) := by
  obtain ⟨children, hget, hshort, -⟩ := leads.vacant
  obtain ⟨children', hget'⟩ := h.directory trivial hget
  obtain ⟨left, heq⟩ := leads.walk_of_grown h
  rw [at?, Tree.get?_snoc hget'] at hput
  rw [heq, walk_last hget' hshort hput hstays]

/-- A walk that ended somewhere goes on from there when there are more steps. -/
theorem Leads.walk_append {place : Location}
    (leads : Leads root true links current steps (.found place)) {more : List Step}
    (hmore : more ≠ []) :
    ∃ left, walk root followLast links current (steps ++ more) =
      walk root followLast left place more := by
  generalize hspot : Spot.found place = spot at leads
  induction leads with
  | stop =>
      cases hspot
      exact ⟨_, rfl⟩
  | here hget _ ih =>
      rw [List.cons_append, walk_here hget]
      exact ih hspot
  | up hget _ ih =>
      rw [List.cons_append, walk_up hget]
      exact ih hspot
  | free => cases hspot
  | through hget hshort hchild hplain _ ih =>
      rw [List.cons_append, walk_through hget hshort hchild hplain]
      exact ih hspot
  | last _ _ _ _ hstays => cases hstays
  | follow hget hshort hchild htarget _ hsome _ ih =>
      have hgoes : ∀ rest : List Step, rest ++ more = [] → followLast = true := by
        intro rest hnil
        exact absurd (List.append_eq_nil_iff.mp hnil).2 hmore
      rw [List.cons_append, walk_follow hget hshort hchild htarget (hgoes _) hsome,
        ← List.append_assoc]
      exact ih hspot

end Grown

end Disk

end DrawingDiary
