import CaviErp.Base.Proofs.RegistryProofs
import CaviErp.Mapper.Paths

/-!
# The path the mapper takes

The search of the mapper is the breadth-first search, over the sorted neighbours of a version. It ends
with the least walk, whatever the order in which the transforms were registered.
-/

namespace CaviErp

open Py

namespace Mapper

variable {m : Mapper} {subject : Json}

/-! ## The search is breadth-first -/

theorem visit_eq (nodePath vs : List Int) (queue : List (List Int)) (seen : List Int) :
    visit nodePath vs queue seen = Bfs.visit nodePath vs queue seen := by
  induction vs generalizing queue seen with
  | nil => rfl
  | cons v vs ih =>
    unfold visit Bfs.visit
    rw [ih, ih]

/-- With fuel for its rounds, the loop returns the steps of the path that is found. -/
theorem search_of_returns {adjacency : Int → List Int} {dst : Int} {n : Nat} {queue : List (List Int)}
    {seen : List Int} {route : Option (List Int)}
    (h : Bfs.Returns (fun v => (adjacency v).mergeSort (· ≤ ·)) dst n queue seen route) {fuel : Nat}
    (hfuel : n ≤ fuel) : search adjacency dst fuel queue seen = route.map steps := by
  induction h generalizing fuel with
  | exhausted =>
    obtain ⟨fuel, rfl⟩ : ∃ k, fuel = k + 1 := ⟨fuel - 1, by omega⟩
    rfl
  | found hlast =>
    obtain ⟨fuel, rfl⟩ : ∃ k, fuel = k + 1 := ⟨fuel - 1, by omega⟩
    rw [search, hlast]
    exact if_pos rfl
  | round hlast hne _ ih =>
    obtain ⟨fuel, rfl⟩ : ∃ k, fuel = k + 1 := ⟨fuel - 1, by omega⟩
    rw [search, hlast]
    simp only [if_neg hne, visit_eq]
    exact ih (by omega)

theorem neighbours_sorted (m : Mapper) (subject : Json) (node : Int) :
    (m.neighbours subject node).Pairwise (· ≤ ·) := by
  have hsorted := @List.pairwise_mergeSort Int (fun a b => decide (a ≤ b))
    (fun a b c hab hbc => by
      simp only [decide_eq_true_eq] at hab hbc ⊢
      exact le_trans hab hbc)
    (fun a b => by simpa using le_total a b) (m.adjacency subject node)
  exact hsorted.imp fun h => by simpa using h

theorem edge_iff {u v : Int} :
    Bfs.Edge (m.neighbours subject) u v ↔ Leads m.transforms subject u v := by
  unfold Bfs.Edge neighbours adjacency Leads
  rw [List.mem_mergeSort, List.mem_filterMap]
  constructor
  · rintro ⟨e, he, hv⟩
    by_cases hcond : Json.str e.subject = subject ∧ e.fromVersion = u
    · rw [if_pos hcond] at hv
      exact ⟨e, he, hcond.1, hcond.2, Option.some.inj hv⟩
    · rw [if_neg hcond] at hv
      cases hv
  · rintro ⟨e, he, hs, hu, rfl⟩
    exact ⟨e, he, if_pos ⟨hs, hu⟩⟩

/-- `_find_path` returns, with the least walk along the transforms of the subject. -/
theorem findPath_finds (m : Mapper) (subject : Json) (src dst : Int) :
    ∃ n route, Bfs.Returns (m.neighbours subject) dst n [[src]] [src] route ∧
      Bfs.Finds (Leads m.transforms subject) src dst route ∧
      m.findPath subject src dst = route.map steps := by
  have hnext : ∀ u, ∀ v ∈ m.neighbours subject u, v ∈ src :: (m.transforms.map Prod.fst).map Edge.toVersion := by
    intro u v hv
    obtain ⟨e, he, -, -, rfl⟩ := edge_iff.mp hv
    exact List.mem_cons_of_mem _ (List.mem_map_of_mem he)
  obtain ⟨n, route, hn, hreturns, hfinds⟩ := Bfs.search_correct (neighbours_sorted m subject) src dst
    List.mem_cons_self hnext
  have hedge : Bfs.Edge (m.neighbours subject) = Leads m.transforms subject := by
    funext u v
    exact propext edge_iff
  rw [List.length_cons, List.length_map, List.length_map] at hn
  exact ⟨n, route, hreturns, hedge ▸ hfinds, search_of_returns hreturns (by omega)⟩

/-! ## Registration -/

theorem register_transforms (m : Mapper) (r : Edge) (fn : TransformFn) :
    (m.register r.subject r.fromVersion r.toVersion fn).transforms =
      if r ∈ m.transforms.map Prod.fst then m.transforms.map fun p => if p.1 = r then (r, fn) else p
      else m.transforms ++ [(r, fn)] := rfl

theorem lookup_register (m : Mapper) (r e : Edge) (fn : TransformFn) :
    (m.register r.subject r.fromVersion r.toVersion fn).transforms.lookup e =
      if e = r then some fn else m.transforms.lookup e := by
  rw [register_transforms]
  by_cases hr : r ∈ m.transforms.map Prod.fst
  · rw [if_pos hr]
    exact Dict.lookup_replace hr fn e
  · rw [if_neg hr, List.lookup_append]
    by_cases he : e = r
    · subst he
      rw [if_pos rfl, Dict.lookup_eq_none_iff.mpr hr, List.lookup_cons_self]
      rfl
    · rw [if_neg he, Dict.lookup_cons, if_neg he]
      exact Option.or_none

/-- After registrations an edge has its last transform, or what it had before. -/
theorem lookup_registered (m : Mapper) (rs : List (Edge × TransformFn)) (e : Edge) :
    (m.registered rs).transforms.lookup e = (lastOf rs e).or (m.transforms.lookup e) := by
  induction rs generalizing m with
  | nil => rfl
  | cons r rs ih =>
    have hstep : m.registered (r :: rs) =
      (m.register r.1.subject r.1.fromVersion r.1.toVersion r.2).registered rs := rfl
    rw [hstep, ih, lookup_register]
    unfold lastOf
    rw [List.reverse_cons, List.lookup_append, Option.or_assoc, Dict.lookup_cons]
    by_cases he : e = r.1
    · rw [if_pos he, if_pos he]
      rfl
    · rw [if_neg he, if_neg he]
      rfl

theorem registered_settings (m : Mapper) (rs : List (Edge × TransformFn)) :
    (m.registered rs).registry = m.registry ∧ (m.registered rs).validateOutput = m.validateOutput := by
  induction rs generalizing m with
  | nil => exact ⟨rfl, rfl⟩
  | cons r rs ih => exact ih _

/-- The order of the registrations does not matter where each edge is registered once. -/
theorem lastOf_perm {rs rs' : List (Edge × TransformFn)} (h : rs.Perm rs')
    (hnodup : (rs.map Prod.fst).Nodup) (e : Edge) : lastOf rs e = lastOf rs' e := by
  refine Dict.lookup_perm ?_ ((rs.reverse_perm.trans h).trans rs'.reverse_perm.symm) e
  rw [List.map_reverse]
  exact List.nodup_reverse.mpr hnodup

theorem leads_iff_lookup {ts : List (Edge × TransformFn)} {u v : Int} :
    Leads ts subject u v ↔ ∃ s, subject = .str s ∧ ∃ fn, ts.lookup ⟨s, u, v⟩ = some fn := by
  unfold Leads
  constructor
  · rintro ⟨e, he, rfl, rfl, rfl⟩
    exact ⟨e.subject, rfl, Dict.exists_lookup_iff.mpr he⟩
  · rintro ⟨s, rfl, h⟩
    exact ⟨⟨s, u, v⟩, Dict.exists_lookup_iff.mp h, rfl, rfl, rfl⟩

/-- The transforms of a fresh mapper lead where those that were registered lead. -/
theorem leads_registered (m : Mapper) (hm : m.transforms = []) (rs : List (Edge × TransformFn))
    (subject : Json) : Leads (m.registered rs).transforms subject = Leads rs subject := by
  funext u v
  rw [leads_iff_lookup]
  refine propext ((leads_iff_lookup.trans ?_).symm)
  have hlast : ∀ e, (∃ fn, (m.registered rs).transforms.lookup e = some fn) ↔
      ∃ fn, rs.lookup e = some fn := by
    intro e
    rw [lookup_registered, hm]
    rw [show List.lookup e ([] : List (Edge × TransformFn)) = none from rfl, Option.or_none]
    unfold lastOf
    rw [Dict.exists_lookup_iff, Dict.exists_lookup_iff, List.map_reverse, List.mem_reverse]
  simp only [hlast]

/-! ## Coercion -/

theorem transformOf_eq (m : Mapper) (s : String) (step : Int × Int) :
    m.transformOf (.str s) step = m.transforms.lookup ⟨s, step.1, step.2⟩ := by
  unfold transformOf
  induction m.transforms with
  | nil => rfl
  | cons p ts ih =>
    rw [List.find?_cons, Dict.lookup_cons]
    by_cases hp : p.1 = ⟨s, step.1, step.2⟩
    · simp [hp]
    · have hcond : ¬ (Json.str p.1.subject = .str s ∧ p.1.fromVersion = step.1 ∧
          p.1.toVersion = step.2) := by
        rintro ⟨hs, hu, hv⟩
        refine hp ?_
        obtain ⟨⟨s', u', v'⟩, fn⟩ := p
        obtain rfl := Json.str.inj hs
        obtain rfl := hu
        obtain rfl := hv
        rfl
      rw [if_neg (Ne.symm hp)]
      simp only [decide_eq_false hcond]
      exact ih

section Congr

variable {m' : Mapper} (hts : ∀ e, m'.transforms.lookup e = m.transforms.lookup e)

include hts

/-- The path depends on the transforms, not on their order. -/
theorem findPath_congr (subject : Json) (src dst : Int) :
    m'.findPath subject src dst = m.findPath subject src dst := by
  have hleads : Leads m'.transforms subject = Leads m.transforms subject := by
    funext u v
    rw [leads_iff_lookup, leads_iff_lookup]
    simp only [hts]
  obtain ⟨-, route', -, hfinds', hpath'⟩ := findPath_finds m' subject src dst
  obtain ⟨-, route, -, hfinds, hpath⟩ := findPath_finds m subject src dst
  rw [hleads] at hfinds'
  rw [hpath', hpath, hfinds'.unique hfinds]

theorem compose_congr (s : String) (path : List (Int × Int)) (payload : Obj) :
    m'.compose (.str s) path payload = m.compose (.str s) path payload := by
  induction path generalizing payload with
  | nil => rfl
  | cons step path ih =>
    unfold compose
    rw [transformOf_eq, transformOf_eq, hts]
    cases m.transforms.lookup ⟨s, step.1, step.2⟩ with
    | none => rfl
    | some fn =>
      show (fn payload >>= fun p => m'.compose (.str s) path p) = fn payload >>= fun p => m.compose (.str s) path p
      exact congrArg (fn payload >>= ·) (funext ih)

/-- So does what a mapper returns or raises. -/
theorem transform_congr (hregistry : m'.registry = m.registry)
    (hvalidate : m'.validateOutput = m.validateOutput) (s : String) (src dst : Int) (payload : Json) :
    m'.transform (.str s) src dst payload = m.transform (.str s) src dst payload := by
  have hcoerce : m'.coerce (.str s) src dst payload = m.coerce (.str s) src dst payload := by
    unfold coerce
    rw [findPath_congr hts]
    simp only [compose_congr hts]
  unfold transform
  rw [hcoerce, hregistry, hvalidate]

end Congr

theorem valid_of_transform {subject payload : Json} {src dst : Int} {result : Obj}
    (hvalidate : m.validateOutput = true) (h : m.transform subject src dst payload = .ok result) :
    ∃ schema, m.registry.get subject (.int dst) = .ok schema ∧ schema.valid (.obj result) = true := by
  unfold transform at h
  rw [hvalidate] at h
  obtain ⟨result', -, h⟩ := bind_eq_ok h
  simp only [if_true] at h
  obtain ⟨u, hcheck, h⟩ := bind_eq_ok h
  obtain rfl : result' = result := Except.ok.inj h
  cases hv : m.registry.validate subject (.int dst) (.obj result') with
  | error e =>
    rw [hv] at hcheck
    cases hcheck
  | ok u =>
    obtain ⟨schema, hfile, hvalid⟩ := m.registry.validate_ok_iff.mp hv
    refine ⟨schema, ?_, hvalid⟩
    unfold SchemaRegistry.get
    rw [hfile]

/-! ## What a coercion applies -/

section Composition

variable {registry : SchemaRegistry} {validateOutput : Bool} {rs : List (Edge × TransformFn)} {s : String}

/-- The transforms of a mapper are those that were registered last. -/
theorem transformOf_registered (step : Int × Int) :
    (registered { registry, validateOutput } rs).transformOf (.str s) step = lastOf rs ⟨s, step.1, step.2⟩ := by
  rw [transformOf_eq, lookup_registered]
  exact Option.or_none

/-- Along a walk there is a transform for each step. -/
theorem compose_composes {versions : List Int} (hchain : versions.IsChain (Leads rs (.str s)))
    (hne : versions ≠ []) (payload : Obj) : Composes rs s versions payload
      ((registered { registry, validateOutput } rs).compose (.str s) (steps versions) payload) := by
  induction versions generalizing payload with
  | nil => exact absurd rfl hne
  | cons u vs ih =>
    cases vs with
    | nil => exact .arrived u payload
    | cons v vs =>
      obtain ⟨hleads, hrest⟩ := List.isChain_cons_cons.mp hchain
      have hsteps : steps (u :: v :: vs) = (u, v) :: steps (v :: vs) := rfl
      obtain ⟨fn, hfn⟩ : ∃ fn, lastOf rs ⟨s, u, v⟩ = some fn := by
        obtain ⟨⟨s', u', v'⟩, he, hs, rfl, rfl⟩ := hleads
        obtain rfl := Json.str.inj hs
        refine Dict.exists_lookup_iff.mpr ?_
        rw [List.map_reverse, List.mem_reverse]
        exact he
      rw [hsteps, compose, transformOf_registered, hfn]
      cases h : fn payload with
      | error e =>
        show Composes rs s _ payload (fn payload >>= _)
        rw [h]
        exact .raised hfn h
      | ok next =>
        show Composes rs s _ payload (fn payload >>= _)
        rw [h]
        exact .step hfn h (ih hrest (List.cons_ne_nil v vs) next)

theorem findPath_self (m : Mapper) (subject : Json) (v : Int) : m.findPath subject v v = some [] := by
  unfold findPath search
  simp

/-- What is coerced along the path that is found. -/
theorem coerce_of_findPath {m : Mapper} {src dst : Int} {payload : Json} {p : Obj} {path : List (Int × Int)}
    (hdict : dictOf payload = some p) (hpath : m.findPath (.str s) src dst = some path) :
    m.coerce (.str s) src dst payload = (m.compose (.str s) path p).mapError .raised := by
  unfold coerce
  rw [hdict]
  by_cases hsame : src = dst
  · subst hsame
    rw [findPath_self] at hpath
    obtain rfl := Option.some.inj hpath
    exact if_pos rfl
  · simp only [if_neg hsame, hpath]

theorem transform_of_coerce {m : Mapper} {src dst : Int} {payload : Json} {outcome : Except PyError Obj}
    (h : m.coerce (.str s) src dst payload = outcome.mapError .raised) :
    m.transform (.str s) src dst payload = checked m.registry m.validateOutput s dst outcome := by
  unfold transform
  rw [h]
  cases outcome with
  | error e => rfl
  | ok result =>
    show (do
      if m.validateOutput then
        (m.registry.validate (.str s) (.int dst) (.obj result)).mapError MapperError.raised
      return result) = _
    unfold checked
    cases m.validateOutput with
    | false => rfl
    | true =>
      simp only [if_true]
      cases m.registry.validate (.str s) (.int dst) (.obj result) with
      | error e => rfl
      | ok u => rfl

theorem checked_ne_noTransformPath {validateOutput : Bool} {version : Int} {outcome : Except PyError Obj}
    {text : String} : checked registry validateOutput s version outcome ≠ .error (.noTransformPath text) := by
  unfold checked
  cases outcome with
  | error e => nofun
  | ok result =>
    cases validateOutput with
    | false => nofun
    | true =>
      simp only [if_true]
      cases registry.validate (.str s) (.int version) (.obj result) with
      | error e => nofun
      | ok u => nofun

/-- `NoTransformPath` is raised exactly where there is none. -/
theorem noTransformPath_iff {m : Mapper} {src dst : Int} {payload : Json} :
    (∃ text, m.transform (.str s) src dst payload = .error (.noTransformPath text)) ↔
      dictOf payload ≠ none ∧ m.findPath (.str s) src dst = none := by
  cases hdict : dictOf payload with
  | none =>
    have hcoerce : m.coerce (.str s) src dst payload =
        .error (.raised (.typeError "cannot convert payload to dict")) := by
      unfold coerce
      rw [hdict]
    constructor
    · rintro ⟨text, h⟩
      unfold transform at h
      rw [hcoerce] at h
      cases h
    · exact fun h => absurd rfl h.1
  | some p =>
    cases hpath : m.findPath (.str s) src dst with
    | some path =>
      have hcoerce := coerce_of_findPath hdict hpath
      constructor
      · rintro ⟨text, h⟩
        rw [transform_of_coerce hcoerce] at h
        exact absurd h checked_ne_noTransformPath
      · rintro ⟨-, h⟩
        cases h
    | none =>
      have hne : src ≠ dst := by
        rintro rfl
        rw [findPath_self] at hpath
        cases hpath
      refine ⟨fun _ => ⟨Option.some_ne_none p, rfl⟩, fun _ => ?_⟩
      unfold transform coerce
      rw [hdict]
      simp only [if_neg hne, hpath]
      exact ⟨_, rfl⟩

end Composition

/-- **The mapper takes the least path.** The search for a path between two versions ends; it finds none
exactly where none leads along the transforms of the subject, and otherwise the shortest, of those as
short the lexicographically first. A coercion applies the transforms along that path to the payload, or raises
`NoTransformPath` where there is none. Mappers with the same transforms coerce alike, in whatever order these
were registered, and a mapper that validates returns nothing that fails the target contract. -/
theorem path_search_correct (registry : SchemaRegistry) (validateOutput : Bool)
    (rs : List (Edge × TransformFn)) (subject : String) (src dst : Int) :
    let m := registered { registry, validateOutput } rs
    (∃ rounds route, Bfs.Returns (m.neighbours (.str subject)) dst rounds [[src]] [src] route ∧
      m.findPath (.str subject) src dst = route.map steps) ∧
    (m.findPath (.str subject) src dst = none ↔
      ¬ Relation.ReflTransGen (Leads rs (.str subject)) src dst) ∧
    (∀ path, m.findPath (.str subject) src dst = some path →
      ∃ versions, path = steps versions ∧ Bfs.Walk (Leads rs (.str subject)) src versions dst ∧
        ∀ others, Bfs.Walk (Leads rs (.str subject)) src others dst →
          versions.length < others.length ∨ versions.length = others.length ∧ versions ≤ others) ∧
    (∀ payload p versions, dictOf payload = some p → Bfs.Walk (Leads rs (.str subject)) src versions dst →
      m.findPath (.str subject) src dst = some (steps versions) →
        ∃ outcome, Composes rs subject versions p outcome ∧
          m.transform (.str subject) src dst payload = checked registry validateOutput subject dst outcome) ∧
    (∀ payload, (∃ text, m.transform (.str subject) src dst payload = .error (.noTransformPath text)) ↔
      dictOf payload ≠ none ∧ m.findPath (.str subject) src dst = none) ∧
    (∀ rs', (∀ edge, lastOf rs' edge = lastOf rs edge) → ∀ payload,
      (registered { registry, validateOutput } rs').transform (.str subject) src dst payload =
        m.transform (.str subject) src dst payload) ∧
    ∀ payload result, validateOutput = true →
      m.transform (.str subject) src dst payload = .ok result →
      ∃ schema, registry.get (.str subject) (.int dst) = .ok schema ∧
        schema.valid (.obj result) = true := by
  intro m
  obtain ⟨n, route, hreturns, hfinds, hpath⟩ := findPath_finds m (.str subject) src dst
  rw [leads_registered { registry, validateOutput } rfl rs] at hfinds
  obtain ⟨hregistry, hvalidate⟩ := registered_settings { registry, validateOutput } rs
  refine ⟨⟨n, route, hreturns, hpath⟩, ?_, ?_, ?_, fun payload => noTransformPath_iff, ?_, ?_⟩
  · rw [hpath, ← Bfs.Walk.exists_iff, not_exists]
    cases route with
    | none => exact ⟨fun _ => hfinds, fun _ => rfl⟩
    | some versions => exact ⟨nofun, fun h => absurd hfinds.1 (h versions)⟩
  · intro path hsome
    rw [hpath] at hsome
    obtain ⟨versions, rfl, rfl⟩ := Option.map_eq_some_iff.mp hsome
    exact ⟨versions, rfl, hfinds.1, fun others hothers => Bfs.rank_le_iff.mp (hfinds.2 others hothers)⟩
  · intro payload p versions hdict hwalk hfound
    have hne : versions ≠ [] := by
      rintro rfl
      cases hwalk.head
    have hcomposes : Composes rs subject versions p (m.compose (.str subject) (steps versions) p) :=
      compose_composes hwalk.chain hne p
    refine ⟨_, hcomposes, ?_⟩
    rw [transform_of_coerce (coerce_of_findPath hdict hfound), hregistry, hvalidate]
  · intro rs' hlast payload
    obtain ⟨hregistry', hvalidate'⟩ := registered_settings { registry, validateOutput } rs'
    refine transform_congr ?_ (hregistry'.trans hregistry.symm) (hvalidate'.trans hvalidate.symm) subject
      src dst payload
    intro e
    rw [lookup_registered, lookup_registered, hlast]
  · intro payload result hon h
    obtain ⟨schema, hget, hvalid⟩ := valid_of_transform (hvalidate.trans hon) h
    rw [hregistry] at hget
    exact ⟨schema, hget, hvalid⟩

end Mapper

end CaviErp
