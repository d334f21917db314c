import Stencil.Proofs.DeferredInitializers
import Mathlib.Data.Fintype.EquivFin
import Mathlib.Logic.Relation

/-! Chains of constructors of one class that call each other before their own statements. Main statement: the
initializer method runs once for each constructor of the chain, the first time before any statement. -/
namespace Stencil

open Relation

namespace ConstructorChain

variable {cs : List ConstructorText} (next : Fin cs.length → Fin cs.length)

def Delegates (i j : Fin cs.length) : Prop := cs[i].callsSelf = true ∧ next i = j

def Acyclic : Prop := ∀ i, ¬TransGen (Delegates next) i i

/-- Running a constructor runs the one that it calls, and then the statements of its own block. The
constructors of `chain` run in this order. -/
inductive Runs : Fin cs.length → List (Fin cs.length) → List Statement → Prop
  | alone {i : Fin cs.length} (h : cs[i].callsSelf = false) : Runs i [i] cs[i].block
  | after {i : Fin cs.length} {chain : List (Fin cs.length)} {trace : List Statement}
      (h : cs[i].callsSelf = true) (hrun : Runs (next i) chain trace) :
      Runs i (chain ++ [i]) (trace ++ cs[i].block)

def StartsWithCall (call : String) (trace : List Statement) : Prop :=
  ∃ (blanks : List Line) (depth : Nat) (rest : List Statement),
    trace = blanks.map .own ++ .initCall ⟨depth, call⟩ :: rest ∧ ∀ x ∈ blanks, x.isBlank = true

variable {next}

theorem wellFounded_of_acyclic (h : Acyclic next) :
    WellFounded fun j i => TransGen (Delegates next) i j := by
  have htrans : IsTrans (Fin cs.length) fun j i => TransGen (Delegates next) i j :=
    ⟨fun _ _ _ hij hjk => hjk.trans hij⟩
  have hirrefl : Std.Irrefl fun j i => TransGen (Delegates next) i j := ⟨h⟩
  exact Finite.wellFounded_of_trans_of_irrefl _

theorem exists_runs (h : Acyclic next) (i : Fin cs.length) : ∃ chain trace, Runs next i chain trace := by
  induction i using (wellFounded_of_acyclic h).induction with
  | h i ih =>
    cases hc : cs[i].callsSelf with
    | false => exact ⟨_, _, .alone hc⟩
    | true =>
      obtain ⟨chain, trace, hrun⟩ := ih (next i) (.single ⟨hc, rfl⟩)
      exact ⟨_, _, .after hc hrun⟩

namespace Runs

variable {i : Fin cs.length} {chain : List (Fin cs.length)} {trace : List Statement}

theorem unique (h : Runs next i chain trace) {chain' : List (Fin cs.length)} {trace' : List Statement}
    (h' : Runs next i chain' trace') : chain' = chain ∧ trace' = trace := by
  induction h generalizing chain' trace' with
  | alone hc =>
    cases h' with
    | alone _ => exact ⟨rfl, rfl⟩
    | after hc' _ => exact absurd (hc.symm.trans hc') (by decide)
  | after hc _ ih =>
    cases h' with
    | alone hc' => exact absurd (hc'.symm.trans hc) (by decide)
    | after _ hrun' =>
      obtain ⟨rfl, rfl⟩ := ih hrun'
      exact ⟨rfl, rfl⟩

theorem reaches (h : Runs next i chain trace) : ∀ j ∈ chain, ReflTransGen (Delegates next) i j := by
  induction h with
  | alone _ => simp [ReflTransGen.refl]
  | after hc _ ih =>
    intro j hj
    obtain hj | rfl := by simpa using hj
    · exact .head ⟨hc, rfl⟩ (ih j hj)
    · exact .refl

theorem nodup (hacyclic : Acyclic next) (h : Runs next i chain trace) : chain.Nodup := by
  induction h with
  | alone _ => simp
  | @after i chain trace hc hrun ih =>
    have hi : i ∉ chain := fun hi => hacyclic i (.head' ⟨hc, rfl⟩ (hrun.reaches i hi))
    refine List.nodup_append.2 ⟨ih, List.nodup_singleton i, fun j hj k hk hjk => ?_⟩
    rw [List.mem_singleton.1 hk] at hjk
    exact hi (hjk ▸ hj)

theorem chain_ne_nil (h : Runs next i chain trace) : chain ≠ [] := by
  cases h <;> simp

theorem length_eq_one_iff (h : Runs next i chain trace) :
    chain.length = 1 ↔ cs[i].callsSelf = false := by
  cases h with
  | alone hc => exact iff_of_true rfl hc
  | after hc hrun =>
    have hpos := List.length_pos_iff.2 hrun.chain_ne_nil
    refine iff_of_false ?_ (by rw [hc]; decide)
    rw [List.length_append, List.length_singleton]
    omega

variable {call : String}

theorem countP_isCall (hcs : ∀ c ∈ cs, CallLeads call c.block) (h : Runs next i chain trace) :
    trace.countP Statement.isCall = chain.length := by
  induction h with
  | @alone i _ => exact (hcs cs[i] (List.getElem_mem _)).countP_isCall
  | @after i chain trace _ _ ih =>
    rw [List.countP_append, ih, (hcs cs[i] (List.getElem_mem _)).countP_isCall, List.length_append,
      List.length_singleton]

theorem startsWithCall (hcs : ∀ c ∈ cs, CallLeads call c.block) (h : Runs next i chain trace) :
    StartsWithCall call trace := by
  induction h with
  | @alone i _ =>
    obtain ⟨blanks, depth, rest, hblock, hb⟩ := hcs cs[i] (List.getElem_mem _)
    exact ⟨blanks, depth, rest.map .own, hblock, hb⟩
  | @after i chain trace _ _ ih =>
    obtain ⟨blanks, depth, rest, htrace, hb⟩ := ih
    exact ⟨blanks, depth, rest ++ cs[i].block, by simp [htrace], hb⟩

end Runs

theorem acyclic_const {e : Fin cs.length} (he : cs[e].callsSelf = false) :
    Acyclic fun _ : Fin cs.length => e := by
  intro i hcycle
  obtain ⟨j, -, -, hlast⟩ := TransGen.tail'_iff.1 hcycle
  obtain ⟨k, ⟨hi, -⟩, -⟩ := TransGen.head'_iff.1 hcycle
  rw [← hlast, he] at hi
  exact absurd hi (by decide)

/-- What one might expect of a class: however its constructors call each other, each of them runs the
initializer method once, and before any statement. -/
def InitializesOnce (call : String) (cs : List ConstructorText) : Prop :=
  ∀ next : Fin cs.length → Fin cs.length, Acyclic next → ∀ i, ∃ chain trace, Runs next i chain trace ∧
    trace.countP Statement.isCall = 1 ∧ StartsWithCall call trace

theorem not_initializesOnce {call : String} (hcs : ∀ c ∈ cs, CallLeads call c.block) {i e : Fin cs.length}
    (hi : cs[i].callsSelf = true) (he : cs[e].callsSelf = false) : ¬InitializesOnce call cs := by
  intro honce
  obtain ⟨chain, trace, hrun, hcount, -⟩ := honce _ (acyclic_const he) i
  rw [hrun.countP_isCall hcs, hrun.length_eq_one_iff, hi] at hcount
  exact absurd hcount (by decide)

end ConstructorChain

namespace Declaration

open ConstructorChain

/-- Of a class with deferred fields, running a constructor runs each constructor of its chain once, and the
initializer method once for each of these; so once in all exactly if the constructor calls no other of its
class. The method runs before any statement, and before the statements of each constructor again. -/
theorem initializer_runs_once_each {δ : Dialect} {d : Declaration} {t : Table} {l : Listing}
    (hclass : d.isInterface = false) (h : d.render δ t = .ok l) (hdefers : d.Defers δ) :
    ∃ o, d.WrittenAs δ t l o ∧ ∀ next : Fin o.constructors.length → Fin o.constructors.length,
      Acyclic next → ∀ i, ∃ chain trace, Runs next i chain trace ∧
        (∀ chain' trace', Runs next i chain' trace' → chain' = chain ∧ trace' = trace) ∧ chain.Nodup ∧
        trace.countP Statement.isCall = chain.length ∧
        (trace.countP Statement.isCall = 1 ↔ o.constructors[i].callsSelf = false) ∧
        StartsWithCall (Dialect.callStatement δ.initializerMethod) trace ∧
        ∀ j ∈ chain, CallLeads (Dialect.callStatement δ.initializerMethod) o.constructors[j].block := by
  obtain ⟨o, ho⟩ := render_writtenAs hclass h
  have hleads := ho.callLeads hdefers
  refine ⟨o, ho, fun next hacyclic i => ?_⟩
  obtain ⟨chain, trace, hrun⟩ := exists_runs hacyclic i
  have hcount := hrun.countP_isCall hleads
  refine ⟨chain, trace, hrun, fun _ _ => hrun.unique, hrun.nodup hacyclic, hcount, ?_,
    hrun.startsWithCall hleads, fun j _ => hleads _ (List.getElem_mem _)⟩
  rw [hcount]
  exact hrun.length_eq_one_iff

theorem holder_constructors {l : Listing} {o : ClassOutline} (h : holder.WrittenAs .brace {} l o) :
    ∃ c e, o.constructors = [c, e] ∧ c.callsSelf = true ∧ e.callsSelf = false := by
  have hself : (holder.outline .brace).map (fun o => o.constructors.map ConstructorText.callsSelf) =
      .ok [true, false] := by decide +kernel
  rw [h.outline] at hself
  simpa [Except.map, List.map_eq_cons_iff] using hself

theorem holder_runs_initializer_twice : holder.Defers .brace ∧ ∃ l o, holder.render .brace {} = .ok l ∧
    holder.WrittenAs .brace {} l o ∧ ∃ next : Fin o.constructors.length → Fin o.constructors.length,
      Acyclic next ∧ ∃ i chain trace, Runs next i chain trace ∧ trace.countP Statement.isCall = 2 := by
  obtain ⟨l, hl⟩ := holder_renders
  obtain ⟨o, ho, hruns⟩ := initializer_runs_once_each rfl hl holder_defers
  obtain ⟨c, e, hcs, hc, he⟩ := holder_constructors ho
  have hlen : o.constructors.length = 2 := by simp [hcs]
  let i : Fin o.constructors.length := ⟨0, by omega⟩
  let j : Fin o.constructors.length := ⟨1, by omega⟩
  have hi : o.constructors[i].callsSelf = true := by simpa [i, hcs] using hc
  have hj : o.constructors[j].callsSelf = false := by simpa [j, hcs] using he
  have hacyclic := acyclic_const hj
  obtain ⟨chain, trace, hrun, hunique, -, hcount, -⟩ := hruns _ hacyclic i
  have hchain := (hunique _ _ (.after hi (.alone hj))).1
  refine ⟨holder_defers, l, o, hl, ho, _, hacyclic, i, chain, trace, hrun, ?_⟩
  rw [hcount, ← hchain]
  rfl

theorem holder_not_initializesOnce : holder.isInterface = false ∧ holder.Defers .brace ∧
    ∃ l o, holder.render .brace {} = .ok l ∧ holder.WrittenAs .brace {} l o ∧
      ¬InitializesOnce (Dialect.callStatement Dialect.brace.initializerMethod) o.constructors := by
  obtain ⟨l, hl⟩ := holder_renders
  obtain ⟨o, ho⟩ := render_writtenAs rfl hl
  obtain ⟨c, e, hcs, hc, he⟩ := holder_constructors ho
  have hlen : o.constructors.length = 2 := by simp [hcs]
  refine ⟨rfl, holder_defers, l, o, hl, ho, ?_⟩
  apply not_initializesOnce (ho.callLeads holder_defers) (i := ⟨0, by omega⟩) (e := ⟨1, by omega⟩)
  · simpa [hcs] using hc
  · simpa [hcs] using he

end Declaration

end Stencil
