import BorrowIR.Proofs.TyWire

/-!
# Types without regions

The decoders of the types of signatures and of bodies differ in the regions that they accept, and in
nothing else. No node is a region of both sorts, so the types that both decoders accept are those
without any regions.

* `Ty.regions`, `Ty.shape`: the regions in a type, at every depth, and the type without them;
* `Ty.decode_matching`: where each region of a type can be read in another way as well, so can the
  type, and what is read has the same shape;
* `Ty.decoders_agree`: the two decoders agree on the types without regions, and only on them.
-/

namespace BorrowIR

open Decode Outcome

namespace Ty

variable {R S : Type}

mutual
/-- The regions in a type, at every depth, from left to right. -/
def regions : Ty R → List R
  | .app _ regions types => regions ++ allRegions types
  | .array elem | .slice elem => regions elem
  | .ref lifetime target _ => lifetime :: regions target
  | .var _ | .bool | .char | .never | .int _ | .str => []

/-- The regions in types. -/
def allRegions : List (Ty R) → List R
  | [] => []
  | ty :: types => regions ty ++ allRegions types
end

mutual
/-- A type that does not say any more which regions stand where. -/
def shape : Ty R → Ty Unit
  | .app head regions types => .app head (regions.map fun _ => ()) (allShapes types)
  | .var id => .var id
  | .bool => .bool
  | .char => .char
  | .never => .never
  | .int ty => .int ty
  | .str => .str
  | .array elem => .array (shape elem)
  | .slice elem => .slice (shape elem)
  | .ref _ target mutability => .ref () (shape target) mutability

/-- The shapes of types. -/
def allShapes : List (Ty R) → List (Ty Unit)
  | [] => []
  | ty :: types => shape ty :: allShapes types
end

/-- The types have the same shape, and their regions are related one by one. -/
structure Matches (related : R → S → Prop) (ty : Ty R) (ty' : Ty S) : Prop where
  shape : ty.shape = ty'.shape
  regions : List.Forall₂ related ty.regions ty'.regions

variable {related : R → S → Prop}

/-- Types that match one by one have the same shapes and related regions. -/
theorem Matches.all {types : List (Ty R)} {types' : List (Ty S)}
    (h : List.Forall₂ (Matches related) types types') :
    allShapes types = allShapes types' ∧
      List.Forall₂ related (allRegions types) (allRegions types') := by
  induction h with
  | nil => exact ⟨rfl, .nil⟩
  | cons hty _ ih =>
    obtain ⟨hshapes, hregions⟩ := ih
    constructor
    · rw [allShapes, allShapes, hty.shape, hshapes]
    · exact List.rel_append hty.regions hregions

theorem Matches.app {head : TypeHead} {regions : List R} {regions' : List S} {types : List (Ty R)}
    {types' : List (Ty S)} (hregions : List.Forall₂ related regions regions')
    (htypes : List.Forall₂ (Matches related) types types') :
    Matches related (.app head regions types) (.app head regions' types') := by
  obtain ⟨hshapes, hall⟩ := Matches.all htypes
  constructor
  · rw [Ty.shape, Ty.shape, hshapes, List.map_const', List.map_const', hregions.length_eq]
  · exact List.rel_append hregions hall

theorem mem_allRegions {types : List (Ty R)} {ty : Ty R} {r : R} (hty : ty ∈ types)
    (hr : r ∈ ty.regions) : r ∈ allRegions types := by
  induction types with
  | nil => cases hty
  | cons _ types ih =>
    rw [allRegions, List.mem_append]
    rcases List.mem_cons.1 hty with rfl | hty
    · exact .inl hr
    · exact .inr (ih hty)

end Ty

/-- What is related to elements of two lists, one by one, is a list related to both. -/
theorem exists_forall₂_of_forall₂ {α β γ : Type} {P : α → β → Prop} {Q : α → γ → Prop}
    {U : β → γ → Prop} {as : List α} {bs : List β} (h : List.Forall₂ P as bs)
    (hstep : ∀ a ∈ as, ∀ b ∈ bs, P a b → ∃ c, Q a c ∧ U b c) :
    ∃ cs, List.Forall₂ Q as cs ∧ List.Forall₂ U bs cs := by
  induction h with
  | nil => exact ⟨[], .nil, .nil⟩
  | @cons a b as bs hab _ ih =>
    obtain ⟨c, hq, hu⟩ := hstep a List.mem_cons_self b List.mem_cons_self hab
    obtain ⟨cs, hqs, hus⟩ := ih fun a ha b hb =>
      hstep a (List.mem_cons_of_mem _ ha) b (List.mem_cons_of_mem _ hb)
    exact ⟨c :: cs, .cons hq hqs, .cons hu hus⟩

namespace Ty

variable {R S : Type} {region : Json → Outcome R} {region' : Json → Outcome S}

/-- The two regions are read from one node. -/
def Alternatives (region : Json → Outcome R) (region' : Json → Outcome S) (r : R) (s : S) : Prop :=
  ∃ v, (region v).Yields r ∧ (region' v).Yields s

/-- **Two readings of one node.** A type is read with other regions as well, as a type of the same
shape, if this can be done with each of its regions. -/
theorem decode_matching {v : Json} {ty : Ty R} (h : (Ty.decode region v).Yields ty)
    (hregions : ∀ r ∈ ty.regions, ∀ w, (region w).Yields r → ∃ s, (region' w).Yields s) :
    ∃ ty', (Ty.decode region' v).Yields ty' ∧ Matches (Alternatives region region') ty ty' := by
  -- by induction on the size of the node; a type is put together from what its parts are read as
  induction hn : sizeOf v using Nat.strongRecOn generalizing v ty with
  | ind n ih =>
    subst hn
    cases reading_of_decode h with
    | var hid => exact ⟨_, decode_of_reading (.var hid), rfl, .nil⟩
    | bool => exact ⟨_, decode_of_reading .bool, rfl, .nil⟩
    | char => exact ⟨_, decode_of_reading .char, rfl, .nil⟩
    | never => exact ⟨_, decode_of_reading .never, rfl, .nil⟩
    | int => exact ⟨_, decode_of_reading .int, rfl, .nil⟩
    | str => exact ⟨_, decode_of_reading .str, rfl, .nil⟩
    | @array own w elem helem =>
      obtain ⟨elem', helem', hmatch⟩ :=
        ih _ (Json.sizeOf_lt_tagged_packed "Array" own w) helem hregions rfl
      exact ⟨_, decode_of_reading (.array helem'), congrArg Ty.array hmatch.shape, hmatch.regions⟩
    | @slice own w elem helem =>
      obtain ⟨elem', helem', hmatch⟩ :=
        ih _ (Json.sizeOf_lt_tagged_packed "Slice" own w) helem hregions rfl
      exact ⟨_, decode_of_reading (.slice helem'), congrArg Ty.slice hmatch.shape, hmatch.regions⟩
    | @ref w t lifetime target mutability hlifetime htarget =>
      obtain ⟨lifetime', hlifetime'⟩ := hregions lifetime List.mem_cons_self w hlifetime
      obtain ⟨target', htarget', hmatch⟩ := ih (sizeOf t) sizeOf_lt_ref htarget
        (fun r hr => hregions r (List.mem_cons_of_mem _ hr)) rfl
      refine ⟨_, decode_of_reading (.ref hlifetime' htarget'), ?_, ?_⟩
      · rw [shape, shape, hmatch.shape]
      · exact .cons ⟨w, hlifetime, hlifetime'⟩ hmatch.regions
    | @app w rs ts head regions types hhead hrs hts harity =>
      obtain ⟨regions', hrs', hmatch⟩ := exists_forall₂_of_forall₂
        (Q := fun w s => (region' w).Yields s) (U := Alternatives region region') hrs
        fun w _ r hr hyields => by
          obtain ⟨s, hs⟩ := hregions r (List.mem_append_left _ hr) w hyields
          exact ⟨s, hs, w, hyields, hs⟩
      obtain ⟨types', hts', hmatches⟩ := exists_forall₂_of_forall₂
        (Q := fun t ty' => (Ty.decode region' t).Yields ty')
        (U := Matches (Alternatives region region')) hts
        fun t ht ty hty hyields => ih _ (sizeOf_lt_app ht) hyields
          (fun r hr => hregions r (List.mem_append_right _ (mem_allRegions hty hr))) rfl
      have harity' : head.Takes regions'.length types'.length := by
        rw [← hmatch.length_eq, ← hmatches.length_eq]
        exact harity
      exact ⟨_, decode_of_reading (.app hhead hrs' hts' harity'), .app hmatch hmatches⟩

/-- A type without regions is read in the same way, whatever regions are accepted. -/
theorem decode_of_regions_eq_nil {v : Json} {ty : Ty R} (h : (Ty.decode region v).Yields ty)
    (hnil : ty.regions = []) :
    ∃ ty' : Ty S, (Ty.decode region' v).Yields ty' ∧ ty'.regions = [] ∧ ty'.shape = ty.shape := by
  have hnone : ∀ r ∈ ty.regions, ∀ w, (region w).Yields r → ∃ s, (region' w).Yields s := by
    rw [hnil]
    exact List.forall_mem_nil _
  obtain ⟨ty', hty', hmatch⟩ := decode_matching h hnone
  have hregions := hmatch.regions
  rw [hnil, List.forall₂_nil_left_iff] at hregions
  exact ⟨ty', hty', hregions, hmatch.shape.symm⟩

/-- Where no node is a region of both sorts, only types without regions are read in both ways. -/
theorem regions_eq_nil_of_decode_both
    (hregion : ∀ w r s, ¬ ((region w).Yields r ∧ (region' w).Yields s)) {v : Json} {ty : Ty R}
    {ty' : Ty S} (h : (Ty.decode region v).Yields ty) (h' : (Ty.decode region' v).Yields ty') :
    ty.regions = [] ∧ ty'.regions = [] ∧ ty.shape = ty'.shape := by
  -- both are read from the type whose regions are left as they are written
  have hmatching : ∃ raw : Ty Json, (Ty.decode pure v).Yields raw ∧
      Matches (Alternatives region pure) ty raw :=
    decode_matching h fun _ _ w _ => ⟨w, rfl⟩
  have hmatching' : ∃ raw : Ty Json, (Ty.decode pure v).Yields raw ∧
      Matches (Alternatives region' pure) ty' raw :=
    decode_matching h' fun _ _ w _ => ⟨w, rfl⟩
  obtain ⟨raw, hraw, hmatch⟩ := hmatching
  obtain ⟨raw', hraw', hmatch'⟩ := hmatching'
  obtain rfl := hraw.unique hraw'
  have hregions := hmatch.regions
  have hregions' := hmatch'.regions
  have hnil : raw.regions = [] := by
    cases hw : raw.regions with
    | nil => rfl
    | cons w ws =>
      -- the first region would be of both sorts
      rw [hw] at hregions hregions'
      obtain ⟨r, -, ⟨_, hr, hwr⟩, -⟩ := List.forall₂_cons_right_iff.1 hregions
      obtain ⟨s, -, ⟨_, hs, hws⟩, -⟩ := List.forall₂_cons_right_iff.1 hregions'
      obtain rfl := yields_pure.1 hwr
      obtain rfl := yields_pure.1 hws
      exact (hregion _ r s ⟨hr, hs⟩).elim
  rw [hnil, List.forall₂_nil_right_iff] at hregions hregions'
  exact ⟨hregions, hregions', hmatch.shape.trans hmatch'.shape.symm⟩

end Ty

/-- No node is a region of a signature and a region of a body. -/
theorem Region.not_decode_both (v : Json) (r : Region) (s : ErasedRegion) :
    ¬ ((Region.decode v).Yields r ∧ (ErasedRegion.decode v).Yields s) := by
  rintro ⟨hr, hs⟩
  obtain ⟨p, hp⟩ := Region.decode_iff.1 hr
  rw [ErasedRegion.decode_yields] at hs
  cases hp with
  | static =>
    have htags : "Static" ≠ s.tag := by cases s; decide
    exact htags (Json.str.inj hs)
  | var => cases hs

/-- **The two sorts of types.** What the decoders of the types of signatures and of bodies both
accept has no region, at any depth, and both read it as a type of one shape. If one of them accepts
a node as a type without regions, so does the other, and the types have the same shape. -/
theorem Ty.decoders_agree (v : Json) :
    (∀ (ty : SigTy) (ty' : ErasedTy), (SigTy.decode v).Yields ty → (ErasedTy.decode v).Yields ty' →
      ty.regions = [] ∧ ty'.regions = [] ∧ ty.shape = ty'.shape) ∧
    (∀ ty : SigTy, (SigTy.decode v).Yields ty → ty.regions = [] →
      ∃ ty' : ErasedTy, (ErasedTy.decode v).Yields ty' ∧ ty'.regions = [] ∧
        ty'.shape = ty.shape) ∧
    ∀ ty' : ErasedTy, (ErasedTy.decode v).Yields ty' → ty'.regions = [] →
      ∃ ty : SigTy, (SigTy.decode v).Yields ty ∧ ty.regions = [] ∧ ty.shape = ty'.shape := by
  refine ⟨fun ty ty' => ?_, fun ty => ?_, fun ty' => ?_⟩
  · exact Ty.regions_eq_nil_of_decode_both Region.not_decode_both
  · exact Ty.decode_of_regions_eq_nil
  · exact Ty.decode_of_regions_eq_nil

/-- Both decoders read the slices of booleans. -/
theorem Ty.decoders_agree_slice :
    ∃ v, (∃ ty : SigTy, (SigTy.decode v).Yields ty ∧ ty.regions = []) ∧
      ∃ ty' : ErasedTy, (ErasedTy.decode v).Yields ty' ∧ ty'.regions = [] ∧
        ty'.shape = .slice .bool := by
  have hslice : (SigTy.decode (.tagged "Slice" (.packed true (.str "Bool")))).Yields
      (.slice .bool) := Ty.decode_of_reading (.slice (Ty.decode_of_reading .bool))
  obtain ⟨ty', hty', -, -⟩ := (Ty.decoders_agree _).2.1 _ hslice rfl
  obtain ⟨hnil, hnil', hshape⟩ := (Ty.decoders_agree _).1 _ _ hslice hty'
  exact ⟨_, ⟨_, hslice, hnil⟩, ty', hty', hnil', hshape.symm⟩

end BorrowIR
