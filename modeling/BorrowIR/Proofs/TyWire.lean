import BorrowIR.Proofs.Wire
import BorrowIR.Ty.Decode

/-!
# The written forms of types

The grammar of types in documents, and the rules of applications.

* `Ty.Wire`: a node is a written form of a type; the regions have a grammar of their own, one for
  signatures (`Region.Wire`) and one for bodies (`ErasedRegion.Wire`).
* `Ty.WellApplied`: at every depth of a type, tuples have no regions, and builtin types have no
  region and one type argument.
* `Ty.decode_iff_wire`: the decoder of types accepts the written forms of the types that obey these
  rules, and reads each of them as the type that it is a form of;
* `Ty.decode_iff_wellApplied`: the same for the decoders of signatures and of bodies.
-/

namespace BorrowIR

open Decode Outcome Wire

/-! ## The grammar -/

/-- Written forms of the regions of signatures. -/
inductive Region.Wire : Region → Packing → Json → Prop
  | static {p : Packing} : Wire .static p (.str "Static")
  | var {p : Packing} {id : RegionVarId} {v : Json} :
    v.IsNumeral id.index → Wire (.var id) p (.tagged "Var" (p.payload v))

/-- The written form of the erased region. -/
inductive ErasedRegion.Wire : ErasedRegion → Packing → Json → Prop
  | erased {p : Packing} : Wire .erased p (.str "Erased")

/-- Written forms of the heads of applications. -/
inductive TypeHead.Wire : TypeHead → Packing → Json → Prop
  | adt {p : Packing} {id : TypeDeclId} {v : Json} :
    v.IsNumeral id.index → Wire (.adt id) p (.tagged "Adt" (p.payload v))
  | tuple {p : Packing} : Wire .tuple p (.str "Tuple")
  | builtin {p : Packing} {ty : BuiltinTy} :
    Wire (.builtin ty) p (.tagged "Assumed" (p.payload (.str ty.tag)))

/-- Written forms of types, with regions whose forms are given by `region`. -/
inductive Ty.Wire {R : Type} (region : R → Packing → Json → Prop) : Ty R → Packing → Json → Prop
  | app {p : Packing} {head : TypeHead} {regions : List R} {types : List (Ty R)} {h : Json}
      {rs ts : List Json} :
    head.Wire (p.child 0) h → Each region regions (p.child 1) rs →
      Each (Ty.Wire region) types (p.child 2) ts →
      Wire region (.app head regions types) p (.tagged "Adt" (.arr [h, .arr rs, .arr ts]))
  | var {p : Packing} {id : TypeVarId} {v : Json} :
    v.IsNumeral id.index → Wire region (.var id) p (.tagged "TypeVar" (p.payload v))
  | bool {p : Packing} : Wire region .bool p (.str "Bool")
  | char {p : Packing} : Wire region .char p (.str "Char")
  | never {p : Packing} : Wire region .never p (.str "Never")
  | int {p : Packing} {ty : IntTy} :
    Wire region (.int ty) p (.tagged "Integer" (p.payload (.str ty.tag)))
  | str {p : Packing} : Wire region .str p (.str "Str")
  | array {p : Packing} {elem : Ty R} {v : Json} :
    Ty.Wire region elem (p.child 0) v → Wire region (.array elem) p (.tagged "Array" (p.payload v))
  | slice {p : Packing} {elem : Ty R} {v : Json} :
    Ty.Wire region elem (p.child 0) v → Wire region (.slice elem) p (.tagged "Slice" (p.payload v))
  | ref {p : Packing} {lifetime : R} {target : Ty R} {mutability : Mutability} {r t : Json} :
    region lifetime (p.child 0) r → Ty.Wire region target (p.child 1) t →
      Wire region (.ref lifetime target mutability) p
        (.tagged "Ref" (.arr [r, t, .str mutability.tag]))

namespace Ty

variable {R : Type}

mutual
/-- The rules of applications, at every depth. What a declared type takes is said elsewhere. -/
def WellApplied : Ty R → Prop
  | .app (.adt _) _ types => AllWellApplied types
  | .app .tuple regions types => regions = [] ∧ AllWellApplied types
  | .app (.builtin _) regions types => regions = [] ∧ types.length = 1 ∧ AllWellApplied types
  | .array elem => WellApplied elem
  | .slice elem => WellApplied elem
  | .ref _ target _ => WellApplied target
  | .var _ | .bool | .char | .never | .int _ | .str => True

/-- The rules of applications hold in each of the types. -/
def AllWellApplied : List (Ty R) → Prop
  | [] => True
  | ty :: types => WellApplied ty ∧ AllWellApplied types
end

/-- The rules of applications hold for types if they hold for each of them. -/
theorem allWellApplied_iff {types : List (Ty R)} :
    AllWellApplied types ↔ ∀ ty ∈ types, WellApplied ty := by
  induction types with
  | nil => simp [AllWellApplied]
  | cons ty types ih => simp [AllWellApplied, ih]

/-- The rules of an application are the check of its head, and the rules in its arguments. -/
theorem wellApplied_app {head : TypeHead} {regions : List R} {types : List (Ty R)} :
    (Ty.app head regions types).WellApplied ↔
      head.Takes regions.length types.length ∧ ∀ ty ∈ types, ty.WellApplied := by
  rw [← allWellApplied_iff]
  cases head with
  | adt id => simp [WellApplied, TypeHead.Takes]
  | tuple => simp [WellApplied, TypeHead.Takes]
  | builtin ty =>
    cases ty <;> simp [WellApplied, TypeHead.Takes, BuiltinTy.arity, eq_comm, and_assoc]

end Ty

/-! ## The decoders of the parts -/

theorem ErasedRegion.decode_yields {v : Json} {r : ErasedRegion} :
    (ErasedRegion.decode v).Yields r ↔ v = .str r.tag := by
  unfold ErasedRegion.decode
  rw [yields_within]
  exact tagOnly_yields (by intro a; cases a; rfl)

theorem IntTy.decode_yields {v : Json} {ty : IntTy} :
    (IntTy.decode v).Yields ty ↔ v = .str ty.tag := by
  unfold IntTy.decode
  rw [yields_within]
  exact tagOnly_yields (by rintro ⟨signed, width⟩; cases signed <;> cases width <;> rfl)

theorem Mutability.decode_yields {v : Json} {mutability : Mutability} :
    (Mutability.decode v).Yields mutability ↔ v = .str mutability.tag := by
  unfold Mutability.decode
  rw [yields_within]
  exact tagOnly_yields (by intro a; cases a <;> rfl)

theorem BuiltinTy.decode_yields {v : Json} {ty : BuiltinTy} :
    (BuiltinTy.decode v).Yields ty ↔ v = .str ty.tag := by
  unfold BuiltinTy.decode
  rw [yields_within]
  exact tagOnly_yields (by intro a; cases a <;> rfl)

theorem IntTy.decode_arr (elems : List Json) (ty : IntTy) :
    ¬ (IntTy.decode (.arr elems)).Yields ty := by
  rw [IntTy.decode_yields]; nofun

theorem BuiltinTy.decode_arr (elems : List Json) (ty : BuiltinTy) :
    ¬ (BuiltinTy.decode (.arr elems)).Yields ty := by
  rw [BuiltinTy.decode_yields]; nofun

/-- An identifier is read from a payload that is its number or a list of the number. -/
theorem wrapped_entityId {sort : Entity} {payload : Json} {id : EntityId sort} :
    (wrapped entityId payload).Yields id ↔
      ∃ own v, payload = .packed own v ∧ v.IsNumeral id.index := by
  simp only [wrapped_yields entityId_arr, entityId_yields]

/-- What is read from a variant whose one field is an identifier. -/
theorem tagged_of_entityId {α : Type} {sort : Entity} {v : Json} {tag : String} {payload : v.Part}
    {f : EntityId sort → α} {a : α} (hv : (variant v).Yields ⟨tag, some payload⟩)
    (h : (f <$> wrapped entityId payload.1).Yields a) :
    ∃ own w id, v = .tagged tag (.packed own w) ∧ w.IsNumeral id.index ∧ f id = a := by
  obtain ⟨own, w, id, hv, hid, rfl⟩ := tagged_of_wrapped entityId_arr hv h
  exact ⟨own, w, id, hv, entityId_yields.1 hid, rfl⟩

theorem entityId_of_tagged {α : Type} {sort : Entity} {own : Bool} {w : Json} {id : EntityId sort}
    (f : EntityId sort → α) (hid : w.IsNumeral id.index) :
    (f <$> wrapped entityId (.packed own w)).Yields (f id) :=
  wrapped_of_tagged entityId_arr f (entityId_yields.2 hid)

theorem Region.decode_iff {v : Json} {r : Region} :
    (Region.decode v).Yields r ↔ ∃ p, r.Wire p v := by
  constructor
  · intro h
    obtain ⟨t, hv, h⟩ := yields_within_bind.1 h
    split at h
    · obtain rfl := yields_pure.1 h
      exact ⟨.bare, variant_yields_none.1 hv ▸ .static⟩
    · obtain ⟨own, w, id, hv, hid, rfl⟩ := tagged_of_entityId hv h
      rw [hv]
      exact ⟨fun _ => own, .var hid⟩
    · exact (yields_fail.1 h).elim
  · rintro ⟨p, h⟩
    rw [Region.decode, yields_within]
    cases h with
    | static => rw [variant_str_bind]; exact yields_pure.2 rfl
    | var hid => rw [variant_tagged_bind]; exact entityId_of_tagged _ hid

theorem ErasedRegion.decode_iff {v : Json} {r : ErasedRegion} :
    (ErasedRegion.decode v).Yields r ↔ ∃ p, r.Wire p v := by
  rw [ErasedRegion.decode_yields]
  cases r
  constructor
  · rintro rfl; exact ⟨.bare, .erased⟩
  · rintro ⟨p, h⟩; cases h; rfl

theorem TypeHead.decode_iff {v : Json} {head : TypeHead} :
    (TypeHead.decode v).Yields head ↔ ∃ p, head.Wire p v := by
  constructor
  · intro h
    obtain ⟨t, hv, h⟩ := yields_within_bind.1 h
    split at h
    · obtain ⟨own, w, id, hv, hid, rfl⟩ := tagged_of_entityId hv h
      rw [hv]
      exact ⟨fun _ => own, .adt hid⟩
    · obtain rfl := yields_pure.1 h
      exact ⟨.bare, variant_yields_none.1 hv ▸ .tuple⟩
    · obtain ⟨own, w, ty, hv, hty, rfl⟩ := tagged_of_wrapped BuiltinTy.decode_arr hv h
      rw [hv, BuiltinTy.decode_yields.1 hty]
      exact ⟨fun _ => own, .builtin⟩
    · exact (yields_fail.1 h).elim
  · rintro ⟨p, h⟩
    rw [TypeHead.decode, yields_within]
    cases h with
    | adt hid => rw [variant_tagged_bind]; exact entityId_of_tagged _ hid
    | tuple => rw [variant_str_bind]; exact yields_pure.2 rfl
    | builtin =>
      rw [variant_tagged_bind]
      exact wrapped_of_tagged BuiltinTy.decode_arr _ (BuiltinTy.decode_yields.2 rfl)

/-- The check of an application succeeds where its head takes so many arguments. -/
theorem TypeHead.checkArity_yields {head : TypeHead} {regions types : Nat} {u : Unit} :
    (head.checkArity regions types).Yields u ↔ head.Takes regions types := by
  unfold checkArity
  by_cases h : head.Takes regions types
  · simp [h]
  · simp [h, yields_fail]

/-! ## The decoder of types -/

namespace Ty

variable {R : Type} {region : Json → Outcome R}

theorem decode_arr (elems : List Json) (ty : Ty R) :
    ¬ (Ty.decode region (.arr elems)).Yields ty := by
  rw [Ty.decode, yields_within]
  exact variant_arr_bind ty

/-- What the decoder reads from a node, in terms of what it reads from the parts of the node. -/
inductive Reading (region : Json → Outcome R) : Json → Ty R → Prop
  | app {h : Json} {rs ts : List Json} {head : TypeHead} {regions : List R} {types : List (Ty R)} :
    (TypeHead.decode h).Yields head → List.Forall₂ (fun r a => (region r).Yields a) rs regions →
      List.Forall₂ (fun t a => (Ty.decode region t).Yields a) ts types →
      head.Takes regions.length types.length →
      Reading region (.tagged "Adt" (.arr [h, .arr rs, .arr ts])) (.app head regions types)
  | var {own : Bool} {w : Json} {id : TypeVarId} :
    w.IsNumeral id.index → Reading region (.tagged "TypeVar" (.packed own w)) (.var id)
  | bool : Reading region (.str "Bool") .bool
  | char : Reading region (.str "Char") .char
  | never : Reading region (.str "Never") .never
  | int {own : Bool} {ty : IntTy} :
    Reading region (.tagged "Integer" (.packed own (.str ty.tag))) (.int ty)
  | str : Reading region (.str "Str") .str
  | array {own : Bool} {w : Json} {elem : Ty R} :
    (Ty.decode region w).Yields elem →
      Reading region (.tagged "Array" (.packed own w)) (.array elem)
  | slice {own : Bool} {w : Json} {elem : Ty R} :
    (Ty.decode region w).Yields elem →
      Reading region (.tagged "Slice" (.packed own w)) (.slice elem)
  | ref {r t : Json} {lifetime : R} {target : Ty R} {mutability : Mutability} :
    (region r).Yields lifetime → (Ty.decode region t).Yields target →
      Reading region (.tagged "Ref" (.arr [r, t, .str mutability.tag]))
        (.ref lifetime target mutability)

/-- What the decoder accepts, it has read part by part. -/
theorem reading_of_decode {v : Json} {ty : Ty R} (h : (Ty.decode region v).Yields ty) :
    Reading region v ty := by
  rw [Ty.decode, yields_within_bind] at h
  obtain ⟨t, hv, h⟩ := h
  -- one case for each tag of a type; a node with any other tag is refused
  split at h <;>
    simp only [listBelow_const, wrappedBelow_const, yields_bind, yields_map, yields_pure,
      yields_fail, list_yields, wrapped_entityId, wrapped_yields IntTy.decode_arr,
      wrapped_yields decode_arr, Prod.exists, Subtype.exists] at h <;>
    simp only [variant_yields_none, variant_yields_some] at hv
  case h_1 =>
    obtain ⟨w, _, wr, _, wt, _, hw, head, hhead, regions, ⟨rs, rfl, hrs⟩, types, ⟨ts, rfl, hts⟩,
      _, harity, rfl⟩ := h
    rw [components_yields] at hw
    rw [hv, hw]
    exact .app hhead hrs hts (TypeHead.checkArity_yields.1 harity)
  case h_2 =>
    obtain ⟨id, ⟨own, w, hw, hid⟩, rfl⟩ := h
    rw [hv, hw]
    exact .var hid
  case h_3 => rw [hv, ← h]; exact .bool
  case h_4 => rw [hv, ← h]; exact .char
  case h_5 => rw [hv, ← h]; exact .never
  case h_6 =>
    obtain ⟨ty, ⟨own, w, hw, hty⟩, rfl⟩ := h
    rw [hv, hw, IntTy.decode_yields.1 hty]
    exact .int
  case h_7 => rw [hv, ← h]; exact .str
  case h_8 =>
    obtain ⟨elem, ⟨own, w, hw, helem⟩, rfl⟩ := h
    rw [hv, hw]
    exact .array helem
  case h_9 =>
    obtain ⟨elem, ⟨own, w, hw, helem⟩, rfl⟩ := h
    rw [hv, hw]
    exact .slice helem
  case h_10 =>
    obtain ⟨wr, _, wt, _, wm, _, hw, lifetime, hlifetime, target, htarget, mutability, hmut, rfl⟩ :=
      h
    rw [components_yields] at hw
    rw [hv, hw, Json.Parts.toList]
    rw [Mutability.decode_yields] at hmut
    subst hmut
    exact .ref hlifetime htarget

/-- What is read part by part is accepted. -/
theorem decode_of_reading {v : Json} {ty : Ty R} (h : Reading region v ty) :
    (Ty.decode region v).Yields ty := by
  rw [Ty.decode, yields_within]
  cases h with
  | app hhead hrs hts harity =>
    rw [variant_tagged_bind]
    refine components_three.2 ?_
    refine yields_bind.2 ⟨_, hhead, yields_bind.2 ⟨_, list_yields.2 ⟨_, rfl, hrs⟩, ?_⟩⟩
    refine yields_bind.2 ⟨_, list_yields.2 ⟨_, rfl, hts⟩, ?_⟩
    exact yields_bind.2 ⟨(), TypeHead.checkArity_yields.2 harity, yields_pure.2 rfl⟩
  | var hid => rw [variant_tagged_bind]; exact entityId_of_tagged _ hid
  | int =>
    rw [variant_tagged_bind]
    exact wrapped_of_tagged IntTy.decode_arr _ (IntTy.decode_yields.2 rfl)
  | array helem | slice helem =>
    rw [variant_tagged_bind]
    exact wrapped_of_tagged decode_arr _ helem
  | ref hlifetime htarget =>
    rw [variant_tagged_bind]
    refine components_three.2 ?_
    refine yields_bind.2 ⟨_, hlifetime, yields_bind.2 ⟨_, htarget, ?_⟩⟩
    exact yields_bind.2 ⟨_, Mutability.decode_yields.2 rfl, yields_pure.2 rfl⟩
  | bool | char | never | str => rw [variant_str_bind]; exact yields_pure.2 rfl

/-- The arguments of an application are below its node. -/
theorem sizeOf_lt_app {h t : Json} {rs ts : List Json} (ht : t ∈ ts) :
    sizeOf t < sizeOf (Json.tagged "Adt" (.arr [h, .arr rs, .arr ts])) := by
  have hlist : sizeOf (Json.arr ts) < sizeOf (Json.tagged "Adt" (.arr [h, .arr rs, .arr ts])) :=
    Json.sizeOf_lt_tagged_arr "Adt" (by simp)
  exact Nat.lt_trans (Json.sizeOf_lt_of_mem_arr ht) hlist

/-- The target of a reference is below its node. -/
theorem sizeOf_lt_ref {r t m : Json} : sizeOf t < sizeOf (Json.tagged "Ref" (.arr [r, t, m])) :=
  Json.sizeOf_lt_tagged_arr "Ref" (by simp)

variable {wire : R → Packing → Json → Prop}
  (hregion : ∀ v r, (region v).Yields r ↔ ∃ p, wire r p v)

include hregion

/-- What the decoder accepts is a form of a type that obeys the rules. -/
theorem wire_of_decode {v : Json} {ty : Ty R} (h : (Ty.decode region v).Yields ty) :
    ty.WellApplied ∧ ∃ p, ty.Wire wire p v := by
  -- by induction on the size of the node; the packings of the parts are joined
  induction hn : sizeOf v using Nat.strongRecOn generalizing v ty with
  | ind n ih =>
    subst hn
    cases reading_of_decode h with
    | var hid => exact ⟨trivial, fun _ => _, .var hid⟩
    | bool => exact ⟨trivial, .bare, .bool⟩
    | char => exact ⟨trivial, .bare, .char⟩
    | never => exact ⟨trivial, .bare, .never⟩
    | int => exact ⟨trivial, fun _ => _, .int⟩
    | str => exact ⟨trivial, .bare, .str⟩
    | @array own w elem helem =>
      obtain ⟨hrules, p, hp⟩ := ih _ (Json.sizeOf_lt_tagged_packed "Array" own w) helem rfl
      exact ⟨hrules, .join own [p], .array hp⟩
    | @slice own w elem helem =>
      obtain ⟨hrules, p, hp⟩ := ih _ (Json.sizeOf_lt_tagged_packed "Slice" own w) helem rfl
      exact ⟨hrules, .join own [p], .slice hp⟩
    | @ref r t lifetime target mutability hlifetime htarget =>
      obtain ⟨p, hp⟩ := (hregion r lifetime).1 hlifetime
      obtain ⟨hrules, q, hq⟩ := ih (sizeOf t) sizeOf_lt_ref htarget rfl
      exact ⟨hrules, .join false [p, q], .ref hp hq⟩
    | @app w rs ts head regions types hhead hrs hts harity =>
      -- each argument is smaller than the node, so it is a form of a type that obeys the rules
      have hargs : List.Forall₂ (fun t ty => ty.WellApplied ∧ ∃ p, Ty.Wire wire ty p t)
          ts types := by
        refine List.forall₂_iff_zip.2 ⟨hts.length_eq, fun {t ty} hmem => ?_⟩
        have hty : (Ty.decode region t).Yields ty := (List.forall₂_iff_zip.1 hts).2 hmem
        exact ih _ (sizeOf_lt_app (List.of_mem_zip hmem).1) hty rfl
      have hrules : ∀ ty ∈ types, ty.WellApplied := by
        intro ty hty
        obtain ⟨i, hi, rfl⟩ := List.getElem_of_mem hty
        have hi' : i < ts.length := by rw [hargs.length_eq]; exact hi
        exact (hargs.get hi' hi).1
      obtain ⟨p, hp⟩ := TypeHead.decode_iff.1 hhead
      obtain ⟨q, hq⟩ := each_of_forall₂ (hrs.imp fun r a => (hregion r a).1)
      obtain ⟨o, ho⟩ := each_of_forall₂ (hargs.imp fun _ _ => And.right)
      exact ⟨wellApplied_app.2 ⟨harity, hrules⟩, .join false [p, q, o], .app hp hq ho⟩

/-- Every form of a type that obeys the rules is read as this type. -/
theorem decode_of_wire {p : Packing} {v : Json} {ty : Ty R} (hrules : ty.WellApplied)
    (h : ty.Wire wire p v) : (Ty.decode region v).Yields ty := by
  induction hn : sizeOf v using Nat.strongRecOn generalizing p v ty with
  | ind n ih =>
    subst hn
    refine decode_of_reading ?_
    cases h with
    | var hid => exact .var hid
    | bool => exact .bool
    | char => exact .char
    | never => exact .never
    | int => exact .int
    | str => exact .str
    | array helem => exact .array (ih _ (Json.sizeOf_lt_tagged_packed "Array" _ _) hrules helem rfl)
    | slice helem => exact .slice (ih _ (Json.sizeOf_lt_tagged_packed "Slice" _ _) hrules helem rfl)
    | @ref _ lifetime target mutability r t hlifetime htarget =>
      exact .ref ((hregion _ _).2 ⟨_, hlifetime⟩) (ih _ sizeOf_lt_ref hrules htarget rfl)
    | @app _ head regions types w rs ts hhead hrs hts =>
      obtain ⟨harity, hargs⟩ := wellApplied_app.1 hrules
      have hts := hts.forall₂
      -- the rules hold in each argument, so each is read from its own form
      have htypes : List.Forall₂ (fun t ty => (Ty.decode region t).Yields ty) ts types := by
        refine List.forall₂_iff_zip.2 ⟨hts.length_eq, fun {t ty} hmem => ?_⟩
        obtain ⟨ht, hty⟩ := List.of_mem_zip hmem
        obtain ⟨q, hq⟩ := (List.forall₂_iff_zip.1 hts).2 hmem
        exact ih _ (sizeOf_lt_app ht) (hargs ty hty) hq rfl
      have hregions := hrs.forall₂.imp fun r a => (hregion r a).2
      exact .app (TypeHead.decode_iff.2 ⟨_, hhead⟩) hregions htypes harity

/-- **The grammar of types.** The decoder accepts the forms of the types that obey the rules of
applications, with the regions that `region` accepts. -/
theorem decode_iff_wire {v : Json} {ty : Ty R} :
    (Ty.decode region v).Yields ty ↔ ty.WellApplied ∧ ∃ p, ty.Wire wire p v := by
  constructor
  · exact wire_of_decode hregion
  · rintro ⟨hrules, p, h⟩
    exact decode_of_wire hregion hrules h

end Ty

/-- **Types of signatures and of bodies.** Each of the two decoders accepts the written forms of the
types that obey the rules of applications, with its own sort of regions, and reads every form as the
type that it is a form of. -/
theorem Ty.decode_iff_wellApplied (v : Json) :
    (∀ ty : SigTy, (SigTy.decode v).Yields ty ↔ ty.WellApplied ∧ ∃ p, ty.Wire Region.Wire p v) ∧
      ∀ ty : ErasedTy, (ErasedTy.decode v).Yields ty ↔
        ty.WellApplied ∧ ∃ p, ty.Wire ErasedRegion.Wire p v := by
  constructor
  · intro ty
    exact Ty.decode_iff_wire fun _ _ => Region.decode_iff
  · intro ty
    exact Ty.decode_iff_wire fun _ _ => ErasedRegion.decode_iff

end BorrowIR
