import DirectSearch.Proofs.Binary64.Smallest
import DirectSearch.Proofs.MeshSearch.Poll
import DirectSearch.Proofs.Scalar.Binary64
/-!
# Mesh search — the size of the mesh

A mesh is proper if it is positive and, unless the search may stop for a
small one, not below `2⁻⁵²`. A poll that clamps leaves a proper mesh
whatever it finds. A poll that does not clamp widens or narrows, and what
can go wrong then is one case only: the least positive float halved is
zero. A mesh is halved by the first failure after a success, or after
nothing at all; and since a success leaves a mesh above the least float,
the one case is that of a search that begins there and fails at once.

The mesh to begin with is not clamped. So the sizes of a run are proper
just where the first one is and that case does not arise
(`mesh_proper_iff`).
-/

namespace DirectSearch

open Scalar OrderedScalar Session

namespace MeshSearch

/-! ## Proper sizes -/

section

variable {α : Type} [Scalar α] {n : Nat} {P : Type} {o : Options α} {st st' : StateOn α n P}

/-- A mesh size as a search is to have it. -/
def Proper (o : Options α) (mesh : α) : Prop :=
  lt zero mesh ∧ (o.stopWhenSmall = false → le eps mesh)

/-- What the sizes need of an arithmetic whose least positive value is
`grain`. -/
structure Grained (grain : α) : Prop where
  zero_lt_grain : lt zero grain
  zero_lt_eps : lt zero (eps : α)
  widened_gt {a b : α} {k : Nat} : lt zero a → 0 < k → widened a k = .ok b → lt grain b
  narrowed_pos {a b : α} {k : Nat} : lt zero a → 2 ≤ k → narrowed a k = .ok b → lt zero b
  /-- One half is positive just where the whole is above the grain. -/
  half_pos_iff {a b : α} : lt zero a → narrowed a 1 = .ok b → (lt zero b ↔ lt grain a)

/-- What a poll keeps of the mesh. Before a first failure it is above the
grain, so that it can be halved. -/
structure Halvable (grain : α) (o : Options α) (st : StateOn α n P) : Prop where
  proper : Proper o st.mesh
  above : o.stopWhenSmall → 0 ≤ st.streak → lt grain st.mesh

variable [OrderedScalar α] {grain : α}

/-- Where the mesh is clamped, it is proper. -/
theorem Grained.proper_clamped (hg : Grained grain) {mesh : α}
    (h : o.stopWhenSmall → lt zero mesh) : Proper o (clamped o mesh) := by
  unfold clamped
  split
  · rename_i ho
    exact ⟨h ho, by simp [ho]⟩
  · have heps : le eps (greatest eps mesh) := by
      unfold greatest
      split
      · exact le_of_lt ‹_›
      · exact (defined_of_le (le_of_lt hg.zero_lt_eps)).2
    exact ⟨lt_of_lt_of_le hg.zero_lt_eps heps, fun _ => heps⟩

variable [Includes α n P]

/-- After a success the mesh can be halved. -/
theorem Success.halvable (hg : Grained grain) {a : Appraisal α n} (h : Success o st a st')
    (hpos : lt zero st.mesh) : Halvable grain o st' := by
  obtain ⟨mesh, hmesh, hclamped⟩ := h.mesh
  have hwide : lt grain mesh := hg.widened_gt hpos (by unfold streakUp; omega) hmesh
  constructor
  · rw [hclamped]
    exact hg.proper_clamped fun _ => lt_trans hg.zero_lt_grain hwide
  · intro ho _
    rw [hclamped, clamped, if_pos ho]
    exact hwide

omit [Includes α n P] in
/-- After a failure the mesh is proper still. -/
theorem Failure.halvable (hg : Grained grain) (h : Failure o st st')
    (hst : Halvable grain o st) : Halvable grain o st' := by
  obtain ⟨mesh, hmesh, hclamped⟩ := h.mesh
  constructor
  · rw [hclamped]
    refine hg.proper_clamped fun ho => ?_
    by_cases hstreak : 0 ≤ st.streak
    · -- the first failure in a row halves the mesh; the later ones divide by less than two
      have hone : (streakDown st.streak).natAbs = 1 := by
        unfold streakDown
        omega
      rw [hone] at hmesh
      exact (hg.half_pos_iff hst.proper.1 hmesh).2 (hst.above ho hstreak)
    · exact hg.narrowed_pos hst.proper.1 (by unfold streakDown; omega) hmesh
  · intro _ hstreak
    rw [h.streak, streakDown] at hstreak
    omega

omit [Includes α n P] [OrderedScalar α] in
/-- The one case: a first failure where the mesh is not above the grain. -/
theorem Failure.not_proper (hg : Grained grain) (h : Failure o st st') (ho : o.stopWhenSmall)
    (hpos : lt zero st.mesh) (hstreak : 0 ≤ st.streak) (hgrain : ¬ lt grain st.mesh) :
    ¬ Proper o st'.mesh := by
  obtain ⟨mesh, hmesh, hclamped⟩ := h.mesh
  have hone : (streakDown st.streak).natAbs = 1 := by
    unfold streakDown
    omega
  rw [hone] at hmesh
  rw [hclamped, clamped, if_pos ho]
  exact fun hproper => hgrain ((hg.half_pos_iff hpos hmesh).1 hproper.1)

/-! ## Along a run -/

variable {m : MeshSearch α n} {clock : Nat → α} {s t : Session α (Row α n) (State α n)}

omit [Includes α n P] in
theorem turns_halvable (hg : Grained grain) (h : Relation.ReflTransGen (m.method.Turns clock) s t)
    (hs : Halvable grain m.options s.state) : Halvable grain m.options t.state := by
  induction h with
  | refl => exact hs
  | tail _ hturn ih =>
    rcases (turn_polled hturn).outcome with ⟨a, hsuccess⟩ | hfailure
    · exact hsuccess.halvable hg ih.proper.1
    · exact hfailure.halvable hg ih

end

/-! ## At 64-bit floats -/

/-- What is known of roots of two as a platform computes them: the first is
exact, and the others are between one and two. -/
structure RootsOfTwo (root : Nat → Float) : Prop where
  first : root 1 = two
  one_le {k : Nat} : 2 ≤ k → le one (root k)
  lt_two {k : Nat} : 2 ≤ k → lt (root k) two

section

open Binary64

variable {root : Nat → Float}

/-- The roots of two are positive, and halve no positive float to zero
unless it is the grain. -/
theorem RootsOfTwo.div_pos (hroot : RootsOfTwo root) {k : Nat} (hk : 2 ≤ k) {x : Float}
    (hx : 0 < value x) : 0 < value (x / root k) := by
  obtain ⟨-, -, hone⟩ := Binary64.le_iff.1 (hroot.one_le hk)
  obtain ⟨-, -, htwo⟩ := Binary64.lt_iff.1 (hroot.lt_two hk)
  rw [value_one] at hone
  rw [value_two] at htwo
  have hpos : 0 < value (root k) := zero_lt_one.trans_le hone
  rw [div_pos_iff (isNumber_of_pos hx) hpos (ne_top_of_lt htwo)]
  obtain ⟨r, hr⟩ : ∃ r : ℝ, value (root k) = r :=
    ⟨_, (EReal.coe_toReal (ne_top_of_lt htwo) (ne_bot_of_gt hpos)).symm⟩
  rw [hr] at htwo ⊢
  have hlt : (2 ^ (-1075 : ℤ) : ℝ) * r < 2 ^ (-1075 : ℤ) * 2 :=
    mul_lt_mul_of_pos_left (EReal.coe_lt_coe_iff.1 htwo) (two_zpow_pos _)
  calc ((2 ^ (-1075 : ℤ) : ℝ) : EReal) * r < ((2 ^ (-1075 : ℤ) : ℝ) : EReal) * 2 :=
        EReal.coe_lt_coe_iff.2 hlt
    _ = value grain := half_grain
    _ ≤ value x := grain_le_value hx

theorem RootsOfTwo.half_pos_iff (hroot : RootsOfTwo root) {x : Float} (hx : 0 < value x) :
    0 < value (x / root 1) ↔ value grain < value x := by
  rw [hroot.first, div_pos_iff (isNumber_of_pos hx) (value_two ▸ zero_lt_two)
    (value_two ▸ nofun), value_two, half_grain]

theorem narrowed_eq_ok {α : Type} [Scalar α] {a b : α} {k : Nat} (h : narrowed a k = .ok b) :
    b = a / rootOfTwo k := by
  unfold narrowed at h
  cases hk : (Number.scalarOfInt k : Except Fault α) with
  | error fault =>
    rw [hk] at h
    cases h
  | ok y =>
    rw [hk] at h
    exact (Except.ok.inj h).symm

theorem widened_eq_ok {α : Type} [Scalar α] {a b : α} {k : Nat} (h : widened a k = .ok b) :
    b = a * power (ofInt 4) k := by
  simp only [widened] at h
  split at h
  · exact (Except.ok.inj h).symm
  · cases h

theorem RootsOfTwo.grained (hroot : RootsOfTwo root) :
    letI := binary64 root
    Grained grain := by
  let _ := binary64 root
  refine ⟨?_, ?_, ?_, ?_, ?_⟩
  · exact zero_lt_iff.2 (value_grain ▸ EReal.coe_pos.2 (two_zpow_pos _))
  · change Float.lt (Float.ofInt 0) (Float.ofInt 1 / Float.ofInt (Int.pow 2 52))
    decide +kernel
  · intro a b k ha hk h
    rw [widened_eq_ok h]
    have hfour : 2 ≤ value (ofInt 4) := value_four ▸ EReal.coe_le_coe_iff.2 (by norm_num)
    have hpower := (one_le_value_power root (one_le_two.trans hfour) k).2 hk
    exact grain_lt_iff.2 (grain_lt_mul (zero_lt_iff.1 ha) (hfour.trans hpower))
  · intro a b k ha hk h
    rw [narrowed_eq_ok h]
    exact zero_lt_iff.2 (hroot.div_pos hk (zero_lt_iff.1 ha))
  · intro a b ha h
    rw [narrowed_eq_ok h]
    exact zero_lt_iff.trans ((hroot.half_pos_iff (zero_lt_iff.1 ha)).trans grain_lt_iff.symm)

/-- **When the mesh sizes of a run are proper, all of them:** the first one
is, and it is not the least positive float in a search that may stop for a
small mesh and whose first poll fails. -/
theorem mesh_proper_iff (hroot : RootsOfTwo root) {n : Nat} (m : MeshSearch Float n)
    (clock : Nat → Float) (d : Desk Float (Row Float n)) :
    letI := binary64 root
    ∀ s₀, m.method.start clock d = .ok s₀ →
      ((∀ s, Relation.ReflTransGen (m.method.Turns clock) s₀ s → Proper m.options s.state.mesh) ↔
        Proper m.options (startMesh m.problem.lower m.problem.upper) ∧
          ¬ (m.options.stopWhenSmall ∧ le (startMesh m.problem.lower m.problem.upper) grain ∧
            ∃ s₁, m.method.Turns clock s₀ s₁ ∧ s₁.state.improved = false)) := by
  let _ := binary64 root
  intro s₀ hstart
  have hg : Grained grain := hroot.grained
  obtain ⟨hfirst, -⟩ := start_first hstart
  rw [← hfirst.mesh]
  constructor
  · intro hall
    refine ⟨hall s₀ .refl, ?_⟩
    rintro ⟨ho, hgrain, s₁, hturn, hfails⟩
    have hfailure := (turn_polled hturn).failure hfails
    exact hfailure.not_proper hg ho (hall s₀ .refl).1 hfirst.streak.ge
      (fun hlt => not_le_of_lt hlt hgrain) (hall s₁ (.single hturn))
  · -- a mesh above the grain can be halved, and then all the others are proper
    rintro ⟨hproper, hcase⟩ s hs
    by_cases habove : m.options.stopWhenSmall → lt grain s₀.state.mesh
    · exact (turns_halvable hg hs ⟨hproper, fun ho _ => habove ho⟩).proper
    -- the mesh cannot be halved, but the first poll does not ask for that
    obtain ⟨ho, hgrain⟩ := Classical.not_imp.1 habove
    have hle : le s₀.state.mesh grain :=
      le_of_not_lt (defined_of_le (le_of_lt hg.zero_lt_grain)).2
        (defined_of_le (le_of_lt hproper.1)).2 hgrain
    rcases hs.cases_head with rfl | ⟨s₁, hturn, hs₁⟩
    · exact hproper
    rcases (turn_polled hturn).outcome with ⟨a, hsuccess⟩ | hfailure
    · exact (turns_halvable hg hs₁ (hsuccess.halvable hg hproper.1)).proper
    · exact absurd ⟨ho, hle, s₁, hturn, hfailure.improved⟩ hcase

/-- **A mesh can be zero from the start:** the bounds leave one point. -/
theorem pinned_mesh_zero :
    let m := onLine square one one one (.default .mesh)
    ∃ s, m.method.Reaches (fun _ => zero) (Session.fresh .empty) s ∧
      ¬ lt zero s.state.mesh ∧ m.options.stopWhenSmall = false ∧ ¬ le eps s.state.mesh := by
  obtain ⟨s, hs, hmesh⟩ := Method.exists_start
    (show ((onLine square one one one (.default .mesh)).method.start (fun _ => zero)
      (Session.fresh .empty)).toOption.any
        (fun s => !lt zero s.state.mesh && !le eps s.state.mesh) by decide +kernel)
  simp only [Bool.and_eq_true, Bool.not_eq_true'] at hmesh
  exact ⟨s, .of_start hs, by simp [hmesh.1], rfl, by simp [hmesh.2]⟩

/-- The first two roots of two, the second one in place of those after
it. -/
def twoRoots (k : Nat) : Float := if k = 1 then two else 1.4142135623730951

theorem twoRoots_rootsOfTwo : RootsOfTwo twoRoots := by
  have hother : ∀ {k}, 2 ≤ k → twoRoots k = 1.4142135623730951 := fun hk => if_neg (by omega)
  refine ⟨rfl, fun hk => ?_, fun hk => ?_⟩
  · rw [hother hk]
    decide +kernel
  · rw [hother hk]
    decide +kernel

/-- Settings under which the mesh may become small. -/
def refining : Settings := (Settings.default .mesh).set "stop_with_small_step" (.flag true)

/-- Without bounds the mesh begins at one, and stays proper where it may
become small. -/
theorem free_mesh_proper :
    letI := binary64 twoRoots
    let m := onLine square zero (-Extended.infinity) Extended.infinity refining
    ∃ s₀, m.method.start (fun _ => zero) (Session.fresh .empty) = .ok s₀ ∧
      ∀ s, Relation.ReflTransGen (m.method.Turns fun _ => zero) s₀ s →
        Proper m.options s.state.mesh := by
  let _ := binary64 twoRoots
  intro m
  obtain ⟨s₀, hs₀, -⟩ := Method.exists_start (q := fun _ => true)
    (r := m.method.start (fun _ => zero) (Session.fresh .empty)) (by decide +kernel)
  refine ⟨s₀, hs₀, (mesh_proper_iff twoRoots_rootsOfTwo m _ _ s₀ hs₀).2 ⟨⟨?_, ?_⟩, ?_⟩⟩
  · decide +kernel
  · exact nofun
  · exact fun h => absurd h.2.1 (by decide +kernel)

end

end MeshSearch

end DirectSearch
