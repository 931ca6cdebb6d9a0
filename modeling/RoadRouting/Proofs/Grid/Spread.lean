import RoadRouting.Grid.Disk

/-!
# What a wave reaches

A wave advances only from its front. That loses nothing: behind the front all neighbours have been
reached (`Wave.Settled`), so one step reaches the neighbours of everything, and `k` steps reach what
lies within `k` steps of the seeds (`contains_grow`). Seeds that spread together therefore reach what
their disks reach (`contains_grow_iff_disk`).
-/

namespace RoadRouting.Grid
set_option autoImplicit false

variable {w : Wave} {c d e : Cell} {cells seeds : List Cell}

theorem CellSet.contains_restrict {s within : CellSet} :
    (restrict s within).contains c ↔ s.contains c ∧ within.contains c := by
  simp [restrict]

/-- The last cell lies at most `k` steps from the first. -/
inductive Cell.Within : Nat → Cell → Cell → Prop where
  | here (k : Nat) (c : Cell) : Within k c c
  | step {k : Nat} {c d e : Cell} (first : d ∈ c.neighbours) (rest : Within k d e) : Within (k + 1) c e

namespace Cell

@[simp] theorem within_zero : Within 0 c e ↔ e = c := by
  refine ⟨fun h => ?_, fun h => h ▸ .here 0 c⟩
  cases h
  rfl

/-- The first of the steps leads to a neighbour, or is not made. -/
theorem within_succ {k : Nat} :
    Within (k + 1) c e ↔ ∃ d, (d = c ∨ d ∈ c.neighbours) ∧ Within k d e := by
  constructor
  · intro h
    cases h with
    | here => exact ⟨c, .inl rfl, .here k c⟩
    | step first rest => exact ⟨_, .inr first, rest⟩
  · rintro ⟨d, rfl | first, rest⟩
    · induction rest with
      | here k c => exact .here (k + 1) c
      | step first _ ih => exact .step first ih
    · exact .step first rest

theorem Within.mono {j k : Nat} (h : Within j c e) (hjk : j ≤ k) : Within k c e := by
  induction hjk with
  | refl => exact h
  | step _ ih => exact within_succ.2 ⟨c, .inl rfl, ih⟩

end Cell

namespace Wave

theorem contains_visit :
    (w.visit d).reached.contains c ↔ w.reached.contains c ∨ c = d := by
  unfold visit
  split
  · rename_i hold
    refine ⟨.inl, ?_⟩
    rintro (h | rfl)
    · exact h
    · exact hold
  · rw [Std.TreeSet.contains_insert, Bool.or_eq_true, beq_iff_eq,
      Std.LawfulEqCmp.compare_eq_iff_eq, eq_comm (a := d)]
    exact or_comm

theorem contains_foldl_visit :
    (cells.foldl visit w).reached.contains c ↔ w.reached.contains c ∨ c ∈ cells := by
  induction cells generalizing w with
  | nil => simp
  | cons d rest ih => rw [List.foldl_cons, ih, contains_visit, List.mem_cons, or_assoc]

/-- What is visited for the first time joins the front. -/
theorem reached_iff_visit {base : CellSet}
    (h : ∀ c, w.reached.contains c ↔ base.contains c ∨ c ∈ w.front) (d c : Cell) :
    (w.visit d).reached.contains c ↔ base.contains c ∨ c ∈ (w.visit d).front := by
  rw [contains_visit, h]
  unfold visit
  split
  · rename_i hold
    refine ⟨?_, .inl⟩
    rintro (hc | rfl)
    · exact hc
    · exact (h c).1 hold
  · rw [List.mem_cons, or_comm (a := c = d), or_assoc]

theorem reached_iff_foldl_visit {base : CellSet}
    (h : ∀ c, w.reached.contains c ↔ base.contains c ∨ c ∈ w.front) (c : Cell) :
    (cells.foldl visit w).reached.contains c ↔
      base.contains c ∨ c ∈ (cells.foldl visit w).front := by
  induction cells generalizing w with
  | nil => exact h c
  | cons d rest ih => exact ih (reached_iff_visit h d)

/-- The front has been reached, and behind it all neighbours have. -/
structure Settled (w : Wave) : Prop where
  front : ∀ c ∈ w.front, w.reached.contains c
  behind : ∀ c, w.reached.contains c → c ∈ w.front ∨ ∀ d ∈ c.neighbours, w.reached.contains d

theorem contains_start : (start seeds).reached.contains c ↔ c ∈ seeds :=
  contains_foldl_visit.trans (by simp)

theorem settled_start (seeds : List Cell) : (start seeds).Settled := by
  have hfront (c : Cell) : (start seeds).reached.contains c ↔ c ∈ (start seeds).front := by
    have hnew : (start seeds).reached.contains c ↔
        (∅ : CellSet).contains c ∨ c ∈ (start seeds).front :=
      reached_iff_foldl_visit (by simp) c
    simpa using hnew
  exact ⟨fun c => (hfront c).2, fun c h => .inl ((hfront c).1 h)⟩

theorem advance_eq (w : Wave) :
    w.advance = (w.front.flatMap Cell.neighbours).foldl visit ⟨w.reached, []⟩ :=
  List.foldl_flatMap.symm

theorem Settled.contains_advance (h : w.Settled) :
    w.advance.reached.contains d ↔
      ∃ c, w.reached.contains c ∧ (d = c ∨ d ∈ c.neighbours) := by
  rw [advance_eq, contains_foldl_visit, List.mem_flatMap]
  constructor
  · rintro (hd | ⟨c, hc, hd⟩)
    · exact ⟨d, hd, .inl rfl⟩
    · exact ⟨c, h.front c hc, .inr hd⟩
  · rintro ⟨c, hc, rfl | hd⟩
    · exact .inl hc
    · rcases h.behind c hc with hfront | hbehind
      · exact .inr ⟨c, hfront, hd⟩
      · exact .inl (hbehind d hd)

theorem Settled.advance (h : w.Settled) : w.advance.Settled := by
  have hnew (c : Cell) :
      w.advance.reached.contains c ↔ w.reached.contains c ∨ c ∈ w.advance.front := by
    rw [advance_eq]
    exact reached_iff_foldl_visit (by simp) c
  refine ⟨fun c hc => (hnew c).2 (.inr hc), fun c hc => ?_⟩
  rcases (hnew c).1 hc with hold | hfront
  · exact .inr fun d hd => h.contains_advance.2 ⟨c, hold, .inr hd⟩
  · exact .inl hfront

theorem Settled.contains_advanced (h : w.Settled) (k : Nat) :
    (w.advanced k).reached.contains e ↔ ∃ c, w.reached.contains c ∧ c.Within k e := by
  induction k generalizing w with
  | zero => simp [advanced]
  | succ k ih =>
    rw [advanced, ih h.advance]
    simp only [h.contains_advance, Cell.within_succ]
    constructor
    · rintro ⟨d, ⟨c, hc, hd⟩, hrest⟩
      exact ⟨c, hc, d, hd, hrest⟩
    · rintro ⟨c, hc, d, hd, hrest⟩
      exact ⟨d, ⟨c, hc, hd⟩, hrest⟩

end Wave

theorem contains_grow {k : Nat} : (grow k seeds).contains e ↔ ∃ c ∈ seeds, c.Within k e := by
  refine ((Wave.settled_start seeds).contains_advanced k).trans ?_
  simp only [Wave.contains_start]

theorem Cell.contains_disk {k : Nat} : (c.disk k).contains e ↔ c.Within k e := by
  rw [disk, contains_grow]
  simp

/-- Seeds that spread together reach what each of them reaches. -/
theorem contains_grow_iff_disk {k : Nat} :
    (grow k seeds).contains e ↔ ∃ c ∈ seeds, (c.disk k).contains e := by
  simp only [contains_grow, Cell.contains_disk]

/-- A disk grows with its radius. -/
theorem Cell.disk_mono {j k : Nat} (h : j ≤ k) (he : (c.disk j).contains e) : (c.disk k).contains e :=
  contains_disk.2 ((contains_disk.1 he).mono h)

/-- The disk of radius one has its centre and the neighbours of it. -/
theorem Cell.contains_disk_one : (c.disk 1).contains e ↔ e = c ∨ e ∈ c.neighbours := by
  rw [contains_disk, within_succ]
  simp

end RoadRouting.Grid
