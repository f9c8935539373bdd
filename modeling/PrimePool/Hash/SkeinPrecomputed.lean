import PrimePool.Hash.SkeinDigest

/-!
# Precomputed chaining variables

`hash/skein_iv.h`: "these values are not magic constants, but are generated using the Threefish block function".
-/

namespace PrimePool.Skein

/-- What is precomputed is what the configuration block gives. -/
def Generated (variant : Variant) : Prop :=
  ∀ hashBitLen X, variant.precomputed hashBitLen = some X →
    X.toList = (chainingVariables variant.size hashBitLen 0 []).toList

theorem generated_of_table {variant : Variant} (lengths : List UInt64)
    (others : ∀ hashBitLen, hashBitLen ∉ lengths → variant.precomputed hashBitLen = none)
    (table : ∀ hashBitLen ∈ lengths, (variant.precomputed hashBitLen).map Vector.toList =
      some (chainingVariables variant.size hashBitLen 0 []).toList) : Generated variant := by
  intro hashBitLen X found
  by_cases member : hashBitLen ∈ lengths
  · have words := table hashBitLen member
    rw [found, Option.map_some] at words
    exact Option.some.inj words
  · rw [others hashBitLen member] at found
    cases found

theorem generated256 : Generated variant256 := by
  refine generated_of_table [256, 224, 160, 128] (fun hashBitLen other => ?_) ?_
  · simp only [List.mem_cons, List.not_mem_nil, or_false, not_or] at other
    simp only [variant256]
    split <;> simp_all
  · simp only [List.forall_mem_cons, List.not_mem_nil, false_imp_iff, implies_true, and_true]
    exact ⟨by decide +kernel, by decide +kernel, by decide +kernel, by decide +kernel⟩

theorem generated512 : Generated variant512 := by
  refine generated_of_table [512, 384, 256, 224] (fun hashBitLen other => ?_) ?_
  · simp only [List.mem_cons, List.not_mem_nil, or_false, not_or] at other
    simp only [variant512]
    split <;> simp_all
  · simp only [List.forall_mem_cons, List.not_mem_nil, false_imp_iff, implies_true, and_true]
    exact ⟨by decide +kernel, by decide +kernel, by decide +kernel, by decide +kernel⟩

theorem generated1024 : Generated variant1024 := by
  refine generated_of_table [512, 384, 1024] (fun hashBitLen other => ?_) ?_
  · simp only [List.mem_cons, List.not_mem_nil, or_false, not_or] at other
    simp only [variant1024]
    split <;> simp_all
  · simp only [List.forall_mem_cons, List.not_mem_nil, false_imp_iff, implies_true, and_true]
    exact ⟨by decide +kernel, by decide +kernel, by decide +kernel⟩

namespace Ctxt

theorem startNewType_congr {size : Size} {ctx ctx' : Ctxt size} (bits : ctx.hashBitLen = ctx'.hashBitLen)
    (X : ctx.X = ctx'.X) (b : ctx.b = ctx'.b) (T1 : UInt64) : ctx.startNewType T1 = ctx'.startNewType T1 := by
  simp only [startNewType, bits, X, b]

theorem init_eq {variant : Variant} (generated : Generated variant) (ctx : Ctxt variant.size) (hashBitLen : UInt64) :
    init variant ctx hashBitLen = ctx.initExt hashBitLen 0 [] := by
  have noKey : ctx.initExt hashBitLen 0 [] =
      (configured { ctx with X := Vector.replicate _ 0, hashBitLen } hashBitLen 0).startNewType BlkType.msg.field := rfl
  rw [noKey, init]
  cases found : variant.precomputed hashBitLen with
  | none => rfl
  | some X =>
      have words := Vector.toList_inj.mp (generated hashBitLen X found)
      apply startNewType_congr
      · rw [configured, processBlock_eq]
        rfl
      · rw [configured_X]
        exact words
      · rw [configured, processBlock_eq]
        rfl

theorem init_eq_initExt :
    (∀ ctx hashBitLen, init variant256 ctx hashBitLen = ctx.initExt hashBitLen 0 []) ∧
      (∀ ctx hashBitLen, init variant512 ctx hashBitLen = ctx.initExt hashBitLen 0 []) ∧
      ∀ ctx hashBitLen, init variant1024 ctx hashBitLen = ctx.initExt hashBitLen 0 [] :=
  ⟨init_eq generated256, init_eq generated512, init_eq generated1024⟩

end Ctxt

end PrimePool.Skein
