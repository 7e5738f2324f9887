import Mathlib.Tactic.Common

/-!
# A device that only exited processes hold

A teardown that `drbdsetup down` refuses is retried until the consumer lets the device go. Only if
`orphanHold` finds that nothing is left to use it is the backing detached by force and destroyed.
-/

namespace Miroir.Teardown

/-! ## The mount tables -/

/-- The mountinfo of a process, its rows by fields. -/
inductive MountInfo where
  | gone
  | unreadable
  | rows (rows : List (List String))

/-- A process under `/proc`. -/
structure Proc where
  /-- The mount namespace, where its link could be read. -/
  ns : Option String
  mountinfo : MountInfo

/-- The mount source that `mountFS` returns. -/
def mountSource (fields : List String) : String :=
  match (fields.drop 6).dropWhile (· ≠ "-") with
  | _ :: _ :: source :: _ => source
  | _ => ""

def mountinfoListsDevice (rows : List (List String)) (minor : Nat) : Bool :=
  rows.any fun f => 5 ≤ f.length &&
    (f[2]? = some ("147:" ++ toString minor) || f[3]? = some ("/drbd" ++ toString minor) ||
      mountSource f = "/dev/drbd" ++ toString minor)

/-- The loop over the processes: `seen` are the namespaces whose table was read. -/
def scan (minor : Nat) : List String → List Proc → Option Bool
  | _, [] => some false
  | seen, p :: procs =>
    if p.ns.any (· ∈ seen) then scan minor seen procs
    else
      match p.mountinfo with
      | .gone => scan minor seen procs
      | .unreadable => none
      | .rows rows =>
        if mountinfoListsDevice rows minor then some true
        else scan minor (p.ns.toList ++ seen) procs

/-- `none` is an error. -/
def deviceMountedAnywhere (procs : Option (List Proc)) (minor : Nat) : Option Bool :=
  procs.bind (scan minor [])

/-- The process's mountinfo was read, and does not list the device. -/
def Clear (minor : Nat) (p : Proc) : Prop :=
  ∃ rows, p.mountinfo = .rows rows ∧ mountinfoListsDevice rows minor = false

/-- The process is gone, or the table of its namespace is clear, read from it or from a sibling. -/
def Unmounted (minor : Nat) (procs : List Proc) (p : Proc) : Prop :=
  p.mountinfo = .gone ∨ ∃ q ∈ procs, (q = p ∨ p.ns.isSome ∧ q.ns = p.ns) ∧ Clear minor q

theorem unmounted_of_scan {minor : Nat} {seen : List String} {all procs : List Proc}
    (hseen : ∀ n ∈ seen, ∃ q ∈ all, q.ns = some n ∧ Clear minor q) (hall : procs ⊆ all)
    (h : scan minor seen procs = some false) : ∀ p ∈ procs, Unmounted minor all p := by
  induction procs generalizing seen with
  | nil => simp
  | cons p procs ih =>
    obtain ⟨hp, hprocs⟩ := List.cons_subset.mp hall
    rw [scan] at h
    rw [List.forall_mem_cons]
    split at h
    · rename_i hany
      obtain ⟨n, hn, hmem⟩ := (Option.any_eq_true _ _).mp hany
      obtain ⟨q, hq, hqn, hclear⟩ := hseen n (of_decide_eq_true hmem)
      exact ⟨.inr ⟨q, hq, .inr ⟨by simp [hn], hqn.trans hn.symm⟩, hclear⟩, ih hseen hprocs h⟩
    · split at h
      · rename_i hm
        exact ⟨.inl hm, ih hseen hprocs h⟩
      · cases h
      · rename_i rows hm
        split at h
        · cases h
        · rename_i hlists
          have hclear : Clear minor p := ⟨rows, hm, by simpa using hlists⟩
          refine ⟨.inr ⟨p, hp, .inl rfl, hclear⟩, ih (fun n hn => ?_) hprocs h⟩
          rcases List.mem_append.mp hn with hn | hn
          exacts [⟨p, hp, Option.mem_toList.mp hn, hclear⟩, hseen n hn]

/-! ## The decision -/

def busyFailLimit : Nat := 30

/-- A teardown that failed, and what `/proc` says. -/
structure Busy where
  deleting : Bool
  minor : Nat
  /-- In a row, before this one. -/
  busyFails : Nat
  heldOpen : Bool
  openerPids : List Nat
  pidAlive : Nat → Bool
  procs : Option (List Proc)

def orphanHold (b : Busy) : Bool :=
  if !b.deleting || b.minor = 0 then false
  else if b.busyFails < busyFailLimit then false
  else if !b.heldOpen then false
  else if b.openerPids = [] then false
  else if b.openerPids.any b.pidAlive then false
  else deviceMountedAnywhere b.procs b.minor = some false

/-- A backing is reclaimed only from a volume that is being deleted, behind a long busy streak, with
openers reported and all of them dead; and no process is left whose mount namespace lists the
device, or could not be looked at. -/
theorem reclaimed_unmounted {b : Busy} (h : orphanHold b) :
    (b.deleting ∧ busyFailLimit ≤ b.busyFails) ∧
      (b.openerPids ≠ [] ∧ ∀ pid ∈ b.openerPids, b.pidAlive pid = false) ∧
      ∃ procs, b.procs = some procs ∧ ∀ p ∈ procs, Unmounted b.minor procs p := by
  rw [orphanHold] at h
  split_ifs at h with hdel hfails hopen hnone halive
  obtain ⟨procs, hprocs, hscan⟩ := Option.bind_eq_some_iff.mp (of_decide_eq_true h)
  refine ⟨⟨by simp_all, Nat.not_lt.mp hfails⟩, ⟨hnone, by simpa using halive⟩, procs, hprocs, ?_⟩
  exact unmounted_of_scan (by simp) (List.Subset.refl _) hscan

/-- The second process shares the namespace of the first, the third is gone. -/
def deadOpener : Busy where
  deleting := true
  minor := 7
  busyFails := busyFailLimit
  heldOpen := true
  openerPids := [149800]
  pidAlive := fun _ => false
  procs := some [⟨some "mnt:[1]", .rows [["1", "0", "147:8", "/", "/mnt"]]⟩,
    ⟨some "mnt:[1]", .unreadable⟩, ⟨none, .gone⟩]

theorem deadOpener_reclaimed_unmounted : orphanHold deadOpener ∧
    ∃ procs, deadOpener.procs = some procs ∧ ∀ p ∈ procs, Unmounted 7 procs p :=
  ⟨by decide, (reclaimed_unmounted (b := deadOpener) (by decide)).2.2⟩

end Miroir.Teardown
