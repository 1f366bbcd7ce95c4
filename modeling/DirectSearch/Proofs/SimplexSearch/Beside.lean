import DirectSearch.Proofs.Search.Beside
import DirectSearch.Proofs.SimplexSearch.Iteration
import DirectSearch.Proofs.Sorting.Sorted
import DirectSearch.SimplexSearch.Run
/-!
# Simplex search — two searches side by side

An iteration looks at values in three ways: it compares them, it sorts its
vertices by them, and where it may rebuild the simplex it takes their mean
and their differences. At points it does not look at all, except to combine
them into new ones, to measure the simplex, and to rebuild it. An `Outlook`
says how the points, the values and the measures of two searches are related.
Where values compare alike and are sorted alike, and new points are related as
the old ones are, the two searches take the same steps (`iterate_beside`), if
they either never rebuild or see the same points and the same differences.
-/

namespace DirectSearch

open Scalar Session Simplex

/-! ## Lists and vectors of results -/

namespace Beside

variable {β β' γ γ' ς ς' : Type} {R E : ς → ς' → Prop}

/-- What is made of the results is related, so they are related by it. -/
theorem of_map {R' : ς → ς' → Prop} {act : EStateM Fault ς β} {act' : EStateM Fault ς' β'}
    {g : β → γ} {g' : β' → γ'} {P : γ → γ' → Prop}
    (h : Beside R (g <$> act) (g' <$> act') P R' E) :
    Beside R act act' (fun b b' => P (g b) (g' b')) R' E := by
  intro s s' hs
  have hmeet : Meet P R' E (EStateM.map g act s) (EStateM.map g' act' s') := h s s' hs
  unfold EStateM.map at hmeet
  generalize act s = r, act' s' = r' at hmeet
  cases r with
  | ok b t =>
    cases r' with
    | ok b' t' =>
      cases hmeet with
      | ok hb ht => exact .ok hb ht
    | error fault t' => cases hmeet
  | error fault t =>
    cases r' with
    | ok b' t' => cases hmeet
    | error fault' t' =>
      cases hmeet with
      | error _ ht => exact .error fault ht

theorem mapM {Q : β → β' → Prop} {P : γ → γ' → Prop} {f : β → EStateM Fault ς γ}
    {f' : β' → EStateM Fault ς' γ'} (h : ∀ x x', Q x x' → Beside R (f x) (f' x') P R E)
    {xs : List β} {xs' : List β'} (hxs : List.Forall₂ Q xs xs') :
    Beside R (xs.mapM f) (xs'.mapM f') (List.Forall₂ P) R E := by
  induction hxs with
  | nil => exact .pure .nil
  | cons hx _ ih =>
    rw [List.mapM_cons, List.mapM_cons]
    exact .bind (h _ _ hx) fun b b' hb => .bind ih fun bs bs' hbs => .pure (.cons hb hbs)

end Beside

namespace SimplexSearch

variable {α : Type} {n : Nat} {ρ : Type}

/-! ## Vertices -/

/-- How the points, the means and the diameters of two searches are related,
besides their values. -/
structure Outlook (α : Type) (n : Nat) extends Pairing α where
  places : Point α n → Point α n → Prop
  means : α → α → Prop
  diameters : α → α → Prop

/-- A vertex of either search. -/
structure Twin (A : Outlook α n) (v v' : Vertex α (Point α n)) : Prop where
  point : A.places v.point v'.point
  value : A.values v.point.toGrid v.value v'.value

/-- The vertices of the two searches, place by place. -/
def Alike (A : Outlook α n) {k : Nat} (vs vs' : Vector (Vertex α (Point α n)) k) : Prop :=
  ∀ i (h : i < k), Twin A vs[i] vs'[i]

namespace Alike

variable {A : Outlook α n} {k : Nat} {vs vs' : Vector (Vertex α (Point α n)) k}
variable {v v' : Vertex α (Point α n)}

theorem iff_forall₂ : Alike A vs vs' ↔ List.Forall₂ (Twin A) vs.toList vs'.toList := by
  rw [List.forall₂_iff_get]
  simp [Alike]

theorem set (h : Alike A vs vs') {i : Nat} (hi : i < k) (hv : Twin A v v') :
    Alike A (vs.set i v) (vs'.set i v') := by
  intro j hj
  rw [Vector.getElem_set, Vector.getElem_set]
  split
  · exact hv
  · exact h j hj

theorem points (h : Alike A vs vs') (hplaces : ∀ x x', A.places x x' → x' = x) :
    vs'.toList.map (·.point) = vs.toList.map (·.point) := by
  refine List.ext_getElem (by simp) fun i hi hi' => ?_
  simpa using hplaces _ _ (h i (by simpa using hi)).point

/-- Vertices that are determined by those that they are alike to. -/
theorem eq_map (h : Alike A vs vs') {g : Vertex α (Point α n) → Vertex α (Point α n)}
    (hg : ∀ v v', Twin A v v' → v' = g v) : vs' = vs.map g := by
  ext i hi
  rw [Vector.getElem_map]
  exact hg _ _ (h i hi)

/-- Vertices at the same points with the same values are the same. -/
theorem eq_of_values (h : Alike A vs vs') (hplaces : ∀ x x', A.places x x' → x' = x)
    (hvalues : ∀ x v v', A.values x v v' → v' = v) : vs' = vs := by
  refine (h.eq_map (g := id) ?_).trans (Vector.map_id vs)
  rintro ⟨x, v⟩ ⟨x', v'⟩ ⟨hplace, hvalue⟩
  cases hplaces _ _ hplace
  cases hvalues _ _ _ hvalue
  rfl

/-- Gradients are the same where points and differences of values are. -/
theorem gradientOf_eq [Scalar α] {vs vs' : Vertices α n (Point α n) 0} (h : Alike A vs vs')
    (hplaces : ∀ x x', A.places x x' → x' = x)
    (hdifferences : ∀ x y v v' w w', A.values x v v' → A.values y w w' → w' - v' = w - v) :
    gradientOf vs'.toList = gradientOf vs.toList := by
  obtain rfl | hn := Nat.eq_zero_or_pos n
  · -- a single vertex has no edges
    have hnone (ws : Vertices α 0 (Point α 0) 0) : ws.others = [] :=
      List.eq_nil_of_length_eq_zero ws.length_others
    rw [vs.toList_eq_cons, vs'.toList_eq_cons, hnone, hnone]
    rfl
  · have hedges : vs'.others.map (edge vs'.best) = vs.others.map (edge vs.best) := by
      refine List.ext_getElem (by simp) fun i hi _ => ?_
      have hlt : i + 1 < n + 1 + 0 := by
        rw [List.length_map, Vertices.length_others] at hi
        omega
      have hbest : Twin A vs.best vs'.best := h 0 (by omega)
      have hother := h (i + 1) hlt
      simp only [List.getElem_map, Vertices.others, List.getElem_tail, Vector.getElem_toList, edge,
        hplaces _ _ hbest.point, hplaces _ _ hother.point,
        hdifferences _ _ _ _ _ _ hbest.value hother.value]
    rw [vs.gradientOf_toList hn, vs'.gradientOf_toList hn, Simplex.gradient, Simplex.gradient,
      hedges]

end Alike

variable [Scalar α] {A : Outlook α n} {p p' : Problem α n} {o : Options α}

/-- Vertices whose values all compare, and compare alike, are sorted alike. -/
theorem Alike.sort
    (hlt : ∀ x y v v' w w', A.values x v v' → A.values y w w' → lt v' w' = lt v w)
    (hdefined : ∀ x v v', A.values x v v' → !isUndefined v ∧ !isUndefined v') {k : Nat}
    {vs vs' : Vector (Vertex α (Point α n)) k} (h : Alike A vs vs') :
    Alike A (sortVertices vs) (sortVertices vs') :=
  iff_forall₂.2 <| Sorting.forall₂_sorted
    (fun _ _ _ _ hv hw => hlt _ _ _ _ _ _ hv.value hw.value)
    (fun _ _ hv => hdefined _ _ _ hv.value) (iff_forall₂.1 h)

variable {starts starts' : Vector (Point α n) (n + 1)}

/-- **Simplices may be rebuilt** where the two searches are at the same points
and see the same differences of values. -/
structure Rebuilds (A : Outlook α n) : Prop where
  places (x x' : Point α n) : A.places x x' ↔ x' = x
  gradient {vs vs' : Vertices α n (Point α n) 0} : Alike A vs vs' →
    gradientOf vs'.toList = gradientOf vs.toList
  change {b b' w w' : α} : A.means b b' → A.means w w' → w' - b' = w - b

/-- **An outlook serves** two problems if their values compare alike and are
sorted alike, and what a search makes of points and values is related again.
Unless the simplices are never rebuilt, they must be so in the same way. -/
structure Serves (A : Outlook α n) (o : Options α) (p p' : Problem α n)
    (starts starts' : Vector (Point α n) (n + 1)) : Prop where
  objectives : A.Objectives p p'
  points {x x' : Point α n} : A.places x x' → A.points x.toGrid x'.toGrid
  starts (i : Nat) (h : i < n + 1) : A.places starts[i] starts'[i]
  le {x y : Grid α} {v v' w w' : α} : A.values x v v' → A.values y w w' → le v' w' = le v w
  lt {x y : Grid α} {v v' w w' : α} : A.values x v v' → A.values y w w' → lt v' w' = lt v w
  sort {k : Nat} {vs vs' : Vector (Vertex α (Point α n)) k} : Alike A vs vs' →
    Alike A (sortVertices vs) (sortVertices vs')
  trial {vs vs' : Vertices α n (Point α n) 0} (weight : Stated α) : Alike A vs vs' →
    Agree A.places (trial vs weight) (trial vs' weight)
  midpoint {x x' y y' : Point α n} : A.places x x' → A.places y y' →
    A.places (Point.midpoint x y) (Point.midpoint x' y')
  diameter {x x' y y' : Point α n} : A.places x x' → A.places y y' →
    A.diameters (Point.distance x y) (Point.distance x' y')
  converged {d d' : α} : A.diameters d d' →
    o.tolerance.map (Number.real d').lt = o.tolerance.map (Number.real d).lt
  mean {vs vs' : Vertices α n (Point α n) 0} : Alike A vs vs' → A.means vs.meanValue vs'.meanValue
  restart : o.orientedRestart → Rebuilds A

/-- The states of the two searches. -/
structure States (A : Outlook α n) (st st' : State α n) : Prop where
  vertices : Alike A st.vertices st'.vertices
  mean : A.means st.mean st'.mean
  restarts : st'.restarts = st.restarts
  diameter : A.diameters st.diameter st'.diameter

/-- The rows of the two searches. -/
structure Rows (A : Outlook α n) (r r' : Row α) : Prop where
  value : ∃ x, A.values x r.value r'.value
  diameter : A.diameters r.diameter r'.diameter
  rest : r' =
    { r with
      evaluations := A.objective + r.evaluations, value := r'.value, diameter := r'.diameter }

/-! ## Evaluations -/

variable {vs vs' : Vertices α n (Point α n) 0}

theorem vertexAt_beside (hA : Serves A o p p' starts starts') {x x' : Point α n}
    (hx : A.places x x') :
    Beside A.Tallies (vertexAt p x) (vertexAt p' x') (Twin A) A.Tallies A.Tallies :=
  .bind (hA.objectives.beside (hA.points hx)) fun _ _ hv => .pure ⟨hx, hv⟩

theorem evaluateAll_beside (hA : Serves A o p p' starts starts') {k : Nat}
    {xs xs' : Vector (Point α n) k} (hxs : ∀ i (h : i < k), A.places xs[i] xs'[i]) :
    Beside A.Tallies (evaluateAll p xs) (evaluateAll p' xs') (Alike A) A.Tallies A.Tallies := by
  have hlist (p : Problem α n) (xs : Vector (Point α n) k) :
      Array.toList <$> (Vector.toArray <$> xs.mapM (vertexAt p)) = xs.toList.mapM (vertexAt p) := by
    rw [Vector.toArray_mapM, Array.toList_mapM]
    rfl
  have h : Beside A.Tallies (Array.toList <$> (Vector.toArray <$> xs.mapM (vertexAt p)))
      (Array.toList <$> (Vector.toArray <$> xs'.mapM (vertexAt p'))) (List.Forall₂ (Twin A))
      A.Tallies A.Tallies := by
    rw [hlist p, hlist p']
    refine .mapM (fun _ _ hx => vertexAt_beside hA hx) (List.forall₂_iff_get.2 ⟨by simp, ?_⟩)
    simpa using hxs
  exact h.of_map.of_map.mono fun vs vs' => Alike.iff_forall₂.2

/-! ## The step -/

theorem Serves.diameters (hA : Serves A o p p' starts starts') (h : Alike A vs vs') :
    Agree A.diameters vs.diameter vs'.diameter := by
  rw [Vertices.diameter_eq, Vertices.diameter_eq]
  exact .ok (hA.diameter (h (n + 0) (by omega)).point (h 0 (by omega)).point)

theorem tryVertex_beside (hA : Serves A o p p' starts starts') (h : Alike A vs vs')
    (weight : Stated α) :
    Beside A.Tallies (tryVertex p vs weight) (tryVertex p' vs' weight) (Twin A) A.Tallies
      A.Tallies :=
  .bind (.demand (hA.trial weight h) fun _ _ ht => ht) fun _ _ hx => vertexAt_beside hA hx

/-- **The step** is the same one, and accepts at the same place or nowhere. -/
theorem tryStep_beside (hA : Serves A o p p' starts starts') (h : Alike A vs vs') :
    Beside A.Tallies (tryStep p o vs) (tryStep p' o vs')
      (fun r r' => r'.1 = r.1 ∧ Option.Rel (Twin A) r.2 r'.2) A.Tallies A.Tallies := by
  have hbest : Twin A vs.best vs'.best := h 0 (by omega)
  have hworst : Twin A vs.worst vs'.worst := h n (by omega)
  have hnext : Twin A vs.nextToWorst vs'.nextToWorst := h (n - 1) (by omega)
  refine .bind (tryVertex_beside hA h _) fun r r' hr => ?_
  rw [hA.le hbest.value hr.value, hA.lt hr.value hnext.value, hA.lt hr.value hbest.value,
    hA.le hnext.value hr.value, hA.lt hr.value hworst.value]
  refine .ite Iff.rfl (fun _ => .pure ⟨rfl, .some hr⟩) fun _ => ?_
  refine .ite Iff.rfl (fun _ => ?_) fun _ => .ite Iff.rfl (fun _ => ?_) fun _ => ?_
  · refine .bind (tryVertex_beside hA h _) fun e e' he => ?_
    rw [hA.lt he.value hr.value]
    exact .ite Iff.rfl (fun _ => .pure ⟨rfl, .some he⟩) fun _ => .pure ⟨rfl, .some hr⟩
  · refine .ite Iff.rfl (fun _ => ?_) fun _ => ?_
    · refine .bind (tryVertex_beside hA h _) fun c c' hc => ?_
      rw [hA.le hc.value hr.value]
      exact .ite Iff.rfl (fun _ => .pure ⟨rfl, .some hc⟩) fun _ => .pure ⟨rfl, .none⟩
    · refine .bind (tryVertex_beside hA h _) fun c c' hc => ?_
      rw [hA.lt hc.value hworst.value]
      exact .ite Iff.rfl (fun _ => .pure ⟨rfl, .some hc⟩) fun _ => .pure ⟨rfl, .none⟩
  · exact .pure ⟨rfl, .none⟩

theorem accept_alike (hA : Serves A o p p' starts starts') (h : Alike A vs vs')
    {accepted accepted' : Option (Vertex α (Point α n))}
    (haccepted : Option.Rel (Twin A) accepted accepted') :
    Alike A (accept vs accepted) (accept vs' accepted') := by
  cases haccepted with
  | none => exact hA.sort h
  | some hv => exact hA.sort (h.set (by omega) hv)

/-! ## The restart and the shrink -/

section

variable {f f' : Session.Frame α ρ} {k : Int} {st st' : State α n}

/-- Vertices replaced by a rule that gives related places. -/
theorem replaceEach_beside (hA : Serves A o p p' starts starts')
    {place place' : Vertices α n (Point α n) 0 → Fin n → Except Fault (Point α n)}
    (hplace : ∀ vs vs', Alike A vs vs' → ∀ i, Agree A.places (place vs i) (place' vs' i))
    (is : List (Fin n)) :
    Beside (A.Sessions (ρ := ρ) (States A) f f' k) (replaceEach p place is)
      (replaceEach p' place' is) (fun _ _ => True) (A.Sessions (States A) f f' k) A.Stopped := by
  induction is with
  | nil => exact .pure trivial
  | cons i is ih =>
    refine .bind Pairing.beside_getState fun st st' hst => ?_
    refine .bind (Pairing.beside_demand (hplace _ _ hst.vertices i)) fun x x' hx => ?_
    refine .bind (Pairing.beside_evaluate (vertexAt_beside hA hx)) fun v v' hv => ?_
    refine .bind (Pairing.beside_modifyState fun _ _ h => ?_) fun _ _ _ => ih
    exact { h with vertices := h.vertices.set (by omega) hv }

theorem shrink_beside (hA : Serves A o p p' starts starts') :
    Beside (A.Sessions (ρ := ρ) (States A) f f' k) (shrink p) (shrink p') (fun _ _ => True)
      (A.Sessions (States A) f f' k) A.Stopped := by
  refine replaceEach_beside hA (fun vs vs' h i => ?_) _
  exact .ok (hA.midpoint (h (i.val + 1) (by omega)).point (h 0 (by omega)).point)

/-- What a restart looks at, where the two searches are at the same points. -/
theorem Rebuilds.nearest_eq (hR : Rebuilds A) (h : Alike A vs vs') :
    vs'.nearest = vs.nearest := by
  have hpoints := h.points fun x x' => (hR.places x x').1
  rw [vs'.toList_eq_cons, vs.toList_eq_cons, List.map_cons, List.map_cons] at hpoints
  obtain ⟨hbest, hothers⟩ := List.cons.inj hpoints
  have hdistances : vs'.others.map (fun v => Point.distance v.point vs'.best.point)
      = vs.others.map fun v => Point.distance v.point vs.best.point := by
    have hmap (ws : List (Vertex α (Point α n))) : ws.map (fun v =>
        Point.distance v.point vs.best.point)
          = (ws.map (·.point)).map (Point.distance · vs.best.point) := by
      rw [List.map_map]
      rfl
    rw [hbest, hmap, hothers, ← hmap]
  rw [Vertices.nearest, Vertices.nearest, Vertices.mapM_distance, Vertices.mapM_distance,
    hdistances]

/-- **The restart:** it is off, or the two simplices are rebuilt alike. -/
theorem considerRestart_beside (hA : Serves A o p p' starts starts') :
    Beside (A.Sessions (ρ := ρ) (States A) f f' k) (considerRestart p o) (considerRestart p' o)
      Eq (A.Sessions (States A) f f' k) A.Stopped := by
  refine .bind Pairing.beside_getState fun st st' hst => ?_
  have hmay : Agree (fun b b' : Bool => b' = b ∧ (b → o.orientedRestart))
      (mayRestart o st.restarts) (mayRestart o st'.restarts) := by
    rw [hst.restarts, mayRestart]
    by_cases ho : o.orientedRestart
    · rw [if_pos ho]
      cases o.maxRestart with
      | ok limit => exact .ok ⟨rfl, fun _ => ho⟩
      | error fault => exact .error fault
    · rw [if_neg ho]
      exact .ok ⟨rfl, nofun⟩
  refine .bind (Pairing.beside_demand hmay) fun b b' hb => ?_
  obtain ⟨rfl, ho⟩ := hb
  refine .ite Iff.rfl (fun hyes => ?_) fun _ => .pure rfl
  have hR := hA.restart (ho hyes)
  have hnow := hA.mean hst.vertices
  have hbest : (Vertices.best st'.vertices).point = (Vertices.best st.vertices).point :=
    (hR.places _ _).1 (hst.vertices 0 (by omega)).point
  rw [hR.nearest_eq hst.vertices, hR.gradient hst.vertices, hbest]
  refine .bind (Pairing.beside_demand (.refl _)) fun radius _ hradius => ?_
  subst hradius
  refine .bind (Pairing.beside_demand (.refl _)) fun g _ hg => ?_
  subst hg
  obtain ⟨size, g⟩ := g
  have hstagnates : stagnates o st'.mean st'.vertices.meanValue radius g
      = stagnates o st.mean st.vertices.meanValue radius g := by
    unfold stagnates
    rw [hR.change hst.mean hnow]
  refine .bind (Pairing.beside_demand (.of_eq hstagnates)) fun rebuild _ hrebuild => ?_
  subst hrebuild
  have hmean : Beside (A.Sessions (ρ := ρ) (States A) f f' k)
      (do modifyState fun u => { u with mean := st.vertices.meanValue }; pure rebuild)
      (do modifyState fun u => { u with mean := st'.vertices.meanValue }; pure rebuild) Eq
      (A.Sessions (States A) f f' k) A.Stopped := by
    refine .bind (Pairing.beside_modifyState (T := States A) fun _ _ h => ?_)
      fun _ _ _ => .pure rfl
    exact { h with mean := hnow }
  refine .ite Iff.rfl (fun _ => ?_) fun _ => hmean
  refine .bind (replaceEach_beside hA ?_ _) fun _ _ _ => ?_
  · intro ws ws' _ i
    exact (Agree.refl _).imp fun x x' hx => (hR.places x x').2 hx.symm
  refine .bind (Pairing.beside_modifyState (T := States A) fun _ _ h => ?_) fun _ _ _ => ?_
  · exact { h with restarts := congrArg (· + 1) h.restarts }
  refine .bind Pairing.beside_getState fun _ _ _ => ?_
  exact .bind (Pairing.beside_report _ _) fun _ _ _ => hmean

/-- The end of an iteration: the vertices are sorted and the simplex is
measured. -/
theorem measure_beside (hA : Serves A o p p' starts starts') (r : MoveReport) :
    let measure : Step α ρ (State α n) MoveReport := do
      countIteration
      modifyState fun st => { st with vertices := sortVertices st.vertices }
      let diameter ← demand (← getState).vertices.diameter
      modifyState fun st => { st with diameter }
      return r
    Beside (A.Sessions (States A) f f' k) measure measure Eq
      (A.Sessions (States A) f f' (k + 1)) A.Stopped := by
  refine .bind Pairing.beside_countIteration fun _ _ _ => ?_
  refine .bind (Pairing.beside_modifyState (T := States A) fun _ _ h => ?_) fun _ _ _ => ?_
  · exact { h with vertices := hA.sort h.vertices }
  refine .bind Pairing.beside_getState fun st st' hst => ?_
  refine .bind (Pairing.beside_demand (hA.diameters hst.vertices)) fun _ _ hd => ?_
  refine .bind (Pairing.beside_modifyState (T := States A) fun _ _ h => ?_) fun _ _ _ => ?_
  · exact { h with diameter := hd }
  exact .pure rfl

/-- **The iterations of the two searches** take the same course. -/
theorem iterate_beside (hA : Serves A o p p' starts starts') :
    Beside (A.Sessions (ρ := ρ) (States A) f f' k) (iterate p o) (iterate p' o) Eq
      (A.Sessions (States A) f f' (k + 1)) A.Stopped := by
  refine .bind Pairing.beside_getState fun st st' hst => ?_
  refine .bind (Pairing.beside_evaluate (tryStep_beside hA hst.vertices)) fun r r' hr => ?_
  obtain ⟨move, accepted⟩ := r
  obtain ⟨move', accepted'⟩ := r'
  obtain ⟨rfl, haccepted⟩ := hr
  refine .bind (Pairing.beside_modifyState (T := States A) fun _ _ h => ?_) fun _ _ _ => ?_
  · exact { h with vertices := accept_alike hA h.vertices haccepted }
  refine .bind (considerRestart_beside hA) fun restarted _ hrestarted => ?_
  subst hrestarted
  have hnone : accepted'.isNone = accepted.isNone := by
    cases haccepted <;> rfl
  rw [hnone]
  refine .ite Iff.rfl (fun _ => ?_) fun _ => measure_beside hA _
  exact .bind (shrink_beside hA) fun _ _ _ => measure_beside hA _

end

/-! ## Searches at the same points -/

/-- The outlook of two searches that are at the same points. -/
def Outlook.same (n : Nat) (A : Pairing α) (means : α → α → Prop) : Outlook α n :=
  { A with places := fun x x' => x' = x, means, diameters := fun d d' => d' = d }

/-- Such an outlook serves if values compare alike and are sorted alike. -/
theorem serves_same {A : Pairing α} {means : α → α → Prop} (hpoints : ∀ x, A.points x x)
    (hobjectives : A.Objectives p p')
    (hle : ∀ x y v v' w w', A.values x v v' → A.values y w w' → le v' w' = le v w)
    (hlt : ∀ x y v v' w w', A.values x v v' → A.values y w w' → lt v' w' = lt v w)
    (hsort : ∀ (k : Nat) (vs vs' : Vector (Vertex α (Point α n)) k),
      Alike (.same n A means) vs vs' → Alike (.same n A means) (sortVertices vs) (sortVertices vs'))
    (hmean : ∀ vs vs' : Vertices α n (Point α n) 0,
      Alike (.same n A means) vs vs' → means vs.meanValue vs'.meanValue)
    (hrestart : o.orientedRestart → Rebuilds (.same n A means)) :
    Serves (.same n A means) o p p' starts starts where
  objectives := hobjectives
  points := by
    rintro x _ rfl
    exact hpoints _
  starts _ _ := rfl
  le := hle _ _ _ _ _ _
  lt := hlt _ _ _ _ _ _
  sort := hsort _ _ _
  trial {vs vs'} weight h := by
    have hpoints := h.points fun _ _ hx => hx
    have hcentroid : vs'.centroid = vs.centroid := by
      simp only [Vertices.centroid, List.map_take, hpoints]
    have hworst : vs'.worst.point = vs.worst.point := (h n (by omega)).point
    have htrial : SimplexSearch.trial vs' weight = SimplexSearch.trial vs weight := by
      simp only [SimplexSearch.trial, hcentroid, hworst]
    rw [htrial]
    exact (Agree.refl _).imp fun _ _ hx => hx.symm
  midpoint := by
    rintro x _ y _ rfl rfl
    rfl
  diameter := by
    rintro x _ y _ rfl rfl
    rfl
  converged := by
    rintro d _ rfl
    rfl
  mean := hmean _ _
  restart := hrestart

/-! ## Whole searches -/

/-- The coupling of two searches. -/
def coupling (A : Outlook α n) (timed : Prop) : Coupling α (Row α) (State α n) MoveReport :=
  { A with states := States A, rows := Rows A, reports := Eq, timed }

/-- **A search on another problem, from other vertices and with other budgets,**
is a twin of the first as far as an outlook serves. -/
theorem twins {m : SimplexSearch α n} {vertices : Vector (Point α n) (n + 1)} {budgets : Budgets α}
    {timed : Prop} (hA : Serves A m.options m.problem p' m.vertices vertices)
    (hlimits : A.Limits timed m.budgets budgets) :
    (coupling A timed).Twins m.method
      { m with problem := p', vertices, budgets : SimplexSearch α n }.method where
  initial f f' k := by
    refine .bind (Pairing.beside_evaluate (evaluateAll_beside hA hA.starts)) fun vs vs' hvs => ?_
    have hsorted := hA.sort hvs
    refine .bind (Pairing.beside_demand (hA.diameters hsorted)) fun _ _ hd => .pure ?_
    exact ⟨hsorted, hA.mean hsorted, rfl, hd⟩
  iterate _ _ _ := iterate_beside hA
  entry := by
    intro f f' k s s' i i' hs hi
    obtain ⟨htally, hst, -, -, -, hk, hk'⟩ := hs
    have hcount : s'.tally.counters.objective = A.objective + s.tally.counters.objective :=
      congrArg Counters.objective htally.counters
    have hmove : i'.map (·.move) = i.map (·.move) := by
      cases hi with
      | none => rfl
      | some h => rw [h]
    refine ⟨⟨_, (hst.vertices 0 (by omega)).value⟩, hst.diameter, ?_⟩
    simp only [method, methodBy, rowOf, hcount, hmove, hk, hk']
  finished := by
    intro s s' hs
    obtain ⟨hspent, -⟩ := hs.limits (show _ from hlimits)
    have hconverged := hA.converged hs.sessions.state.diameter
    simp only [Method.finished, Method.exhausted, method, methodBy, isConverged, hconverged, hspent]
  closing := by
    intro s s' hs
    obtain ⟨hspent, hstatus⟩ := hs.limits (show _ from hlimits)
    have hconverged := hA.converged hs.sessions.state.diameter
    have hverdict : verdict m.options budgets s' = verdict m.options m.budgets s := by
      funext exhausted
      simp only [verdict, isConverged, hconverged, hstatus]
    simp only [Method.exhausted, method, methodBy, hspent, hverdict]

end SimplexSearch

end DirectSearch
