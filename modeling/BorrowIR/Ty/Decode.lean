import BorrowIR.Decode.Node

/-!
# Decoding types

The grammar of types is decoded once for both sorts of regions: `Ty.decode` is given the decoder of
the regions at the leaves.
-/

namespace BorrowIR

open Decode Outcome

/-- A region of a signature. -/
def Region.decode (v : Json) : Outcome Region :=
  within "region" do
    match ← variant v with
    | ⟨"Static", none⟩ => return .static
    | ⟨"Var", some payload⟩ => .var <$> wrapped entityId payload
    | ⟨tag, _⟩ => fail (.unknownVariant "Region" tag)

/-- An erased region. -/
def ErasedRegion.decode (v : Json) : Outcome ErasedRegion :=
  within "erased_region" (tagOnly "ErasedRegion" all tag v)

/-- An integer type. -/
def IntTy.decode (v : Json) : Outcome IntTy :=
  within "integer_ty" (tagOnly "IntegerTy" all tag v)

/-- A kind of reference. -/
def Mutability.decode (v : Json) : Outcome Mutability :=
  within "ref_kind" (tagOnly "RefKind" all tag v)

/-- A builtin type. -/
def BuiltinTy.decode (v : Json) : Outcome BuiltinTy :=
  within "assumed_ty" (tagOnly "AssumedTy" all tag v)

/-- The head of an application. -/
def TypeHead.decode (v : Json) : Outcome TypeHead :=
  within "type_id" do
    match ← variant v with
    | ⟨"Adt", some payload⟩ => .adt <$> wrapped entityId payload
    | ⟨"Tuple", none⟩ => return .tuple
    | ⟨"Assumed", some payload⟩ => .builtin <$> wrapped BuiltinTy.decode payload
    | ⟨tag, _⟩ => fail (.unknownVariant "TypeId" tag)

/-- The rule that an application breaks whose head cannot be applied to so many arguments. -/
def TypeHead.arityViolation (regions types : Nat) : TypeHead → Violation
  | .builtin ty => .builtinArity ty regions types
  | .adt _ | .tuple => .tupleRegions regions

/-- Checks the number of arguments of an application. -/
def TypeHead.checkArity (head : TypeHead) (regions types : Nat) : Outcome Unit :=
  if head.Takes regions types then pure ()
  else fail (.violation (head.arityViolation regions types))

/-- A type, with the regions that `region` decodes. -/
def Ty.decode {R : Type} (region : Json → Outcome R) (v : Json) : Outcome (Ty R) :=
  within "ty" do
    match ← variant v with
    | ⟨"Adt", some ⟨payload, _⟩⟩ =>
      let (head, regions, ⟨types, _⟩) ← components 3 payload
      let head ← TypeHead.decode head
      let regions ← list region regions
      let types ← listBelow types fun ty _ => Ty.decode region ty
      head.checkArity regions.length types.length
      return .app head regions types
    | ⟨"TypeVar", some payload⟩ => .var <$> wrapped entityId payload
    | ⟨"Bool", none⟩ => return .bool
    | ⟨"Char", none⟩ => return .char
    | ⟨"Never", none⟩ => return .never
    | ⟨"Integer", some payload⟩ => .int <$> wrapped IntTy.decode payload
    | ⟨"Str", none⟩ => return .str
    | ⟨"Array", some ⟨payload, _⟩⟩ =>
      .array <$> wrappedBelow payload fun ty _ => Ty.decode region ty
    | ⟨"Slice", some ⟨payload, _⟩⟩ =>
      .slice <$> wrappedBelow payload fun ty _ => Ty.decode region ty
    | ⟨"Ref", some ⟨payload, _⟩⟩ =>
      let (lifetime, ⟨target, _⟩, mutability) ← components 3 payload
      return .ref (← region lifetime) (← Ty.decode region target) (← Mutability.decode mutability)
    | ⟨tag, _⟩ => fail (.unknownVariant "Ty" tag)
termination_by sizeOf v
decreasing_by all_goals omega

/-- A type of a signature or of a type declaration. -/
def SigTy.decode (v : Json) : Outcome SigTy := Ty.decode Region.decode v

/-- A type of a body. -/
def ErasedTy.decode (v : Json) : Outcome ErasedTy := Ty.decode ErasedRegion.decode v

end BorrowIR
