import BlogSite.CommandLine
import BlogSite.Proofs.JsonReading
import BlogSite.Proofs.KeyedEntries

/-!
What an accepted command line says. It is a row of options, each with a value that it takes or with none, and
nothing else; and what it gives for a setting is what the last option for that setting gives.
-/

namespace BlogSite

namespace CommandLine

/-- The words are a row of options. Each of them gives a setting a value, in this order: an option that takes a
value gives that text, one that turns a setting on gives the truth. -/
inductive Gives : List Word → List (String × Value) → Prop
  | nil : Gives [] []
  | attached {o : Opt} {key value : String} {choices : List String} {ws : List Word}
      {uses : List (String × Value)} (ho : o.action = .store key choices)
      (hvalue : isAllowed choices value = true) (hws : Gives ws uses) :
    Gives (.option o (some value) :: ws) ((key,.str value) :: uses)
  | following {o : Opt} {key value : String} {choices : List String} {ws : List Word}
      {uses : List (String × Value)} (ho : o.action = .store key choices)
      (hvalue : isAllowed choices value = true) (hws : Gives ws uses) :
    Gives (.option o none :: .plain value :: ws) ((key,.str value) :: uses)
  | turnedOn {o : Opt} {key : String} {ws : List Word} {uses : List (String × Value)}
      (ho : o.action = .turnOn key) (hws : Gives ws uses) :
    Gives (.option o none :: ws) ((key,.bool true) :: uses)

/-- The words of a command line, as they are classified, give settings values. -/
def Spells (words : List String) (uses : List (String × Value)) : Prop :=
  ∃ ws, classifyAll words = .ok ws ∧ Gives ws uses

variable {given result : Entries} {extras : List String} {ws : List Word} {uses : List (String × Value)}

/-- A row of options is accepted from any settings on. -/
theorem Gives.interpretFrom (h : Gives ws uses) (given : Entries) :
    interpretFrom given [] ws = .proceed (given.update (Json.named uses)) := by
  induction h generalizing given with
  | nil => rfl
  | attached ho hvalue _ ih =>
    simp only [CommandLine.interpretFrom,ho,hvalue,if_true]
    exact ih _
  | following ho hvalue _ ih =>
    simp only [CommandLine.interpretFrom,ho,hvalue,if_true]
    exact ih _
  | turnedOn ho _ ih =>
    simp only [CommandLine.interpretFrom,ho]
    exact ih _

/-- What is accepted is a row of options, and there is no other word. -/
theorem exists_gives_of_proceed (h : interpretFrom given extras ws = .proceed result) :
    extras = [] ∧ ∃ uses, Gives ws uses := by
  fun_induction interpretFrom given extras ws with
  | case1 given extras hextras => exact ⟨List.isEmpty_iff.mp hextras,[],.nil⟩
  | case3 given extras s ws ih | case4 given extras s ws ih | case5 given extras ws ih =>
    exact absurd (ih h).1 (by simp)
  | case8 given extras o value ws key choices ho hvalue ih =>
    obtain ⟨hextras,uses,huses⟩ := ih h
    exact ⟨hextras,_,.attached ho hvalue huses⟩
  | case11 given extras o ws key ho ih =>
    obtain ⟨hextras,uses,huses⟩ := ih h
    exact ⟨hextras,_,.turnedOn ho huses⟩
  | case14 given extras o key choices ho value ws hvalue ih =>
    obtain ⟨hextras,uses,huses⟩ := ih h
    exact ⟨hextras,_,.following ho hvalue huses⟩
  | _ => cases h

/-- A command line is accepted just when it is a row of options; the settings are given one after the other. -/
theorem interpret_eq_proceed_iff {words : List String} : interpret words = .proceed given ↔
    ∃ uses, Spells words uses ∧ given = Entries.ofList (Json.named uses) := by
  unfold interpret Spells
  cases hwords : classifyAll words with
  | error message => simp
  | ok ws =>
    constructor
    · intro h
      obtain ⟨-,uses,huses⟩ := exists_gives_of_proceed h
      refine ⟨uses,⟨ws,rfl,huses⟩,?_⟩
      exact (Request.proceed.inj ((huses.interpretFrom []).symm.trans h)).symm
    · rintro ⟨uses,⟨ws',hws,huses⟩,rfl⟩
      obtain rfl := Except.ok.inj hws
      exact huses.interpretFrom []

/-! ### The last option for a setting -/

theorem last?_ofList_named (uses : List (String × Value)) (key : String) :
    Entries.last? key (Entries.ofList (Json.named uses)) = uses.reverse.lookup key := by
  have hrows := Table.nodup_ofPairs uses
  have hreverse : ((Table.ofPairs uses).reverse.map Prod.fst).Nodup := by
    rwa [List.map_reverse,List.nodup_reverse]
  have hsame : (Table.ofPairs uses).reverse.lookup key = (Table.ofPairs uses).lookup key := by
    refine Option.ext fun v => ?_
    rw [← Table.mem_iff_lookup hreverse,← Table.mem_iff_lookup hrows,List.mem_reverse]
  rw [Entries.last?,Json.ofList_named,Json.named,← List.map_reverse]
  exact ((Json.find?_named _ _).trans hsame).trans (Table.lookup_ofPairs _ _)

/-- What options give is a text or the truth. -/
theorem Gives.values (h : Gives ws uses) : ∀ u ∈ uses, (∃ s, u.2 = .str s) ∨ u.2 = .bool true := by
  induction h with
  | nil => simp
  | attached _ _ _ ih | following _ _ _ ih => exact List.forall_mem_cons.mpr ⟨.inl ⟨_,rfl⟩,ih⟩
  | turnedOn _ _ ih => exact List.forall_mem_cons.mpr ⟨.inr rfl,ih⟩

end CommandLine

end BlogSite
