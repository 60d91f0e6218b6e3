import BlogSite.Proofs.TemplateFilling
import BlogSite.Proofs.TextMarks
import BlogSite.Proofs.TextParts

/-!
Templates that begin with texts that have tokens between them. Where no text opens two braces and no name closes
one, the cut is the one that was written; so filling such a template keeps the texts and puts the values
between them, whatever comes after them.
-/

namespace BlogSite.Template

variable {names : Set String} {s t : List Char} {n : String} {parts : List Part}

/-- A text opens no token where no two braces are opened one after the other, and none at its end. -/
def opensNone (s : List Char) : Bool := Text.parted '\x7b' '\x7b' s

/-- A text that opens no token is copied. -/
theorem Cut.text (hs : opensNone s) (ht : Cut names t parts) : Cut names (s ++ t) (s.map .char ++ parts) := by
  induction s with
  | nil => exact ht
  | cons c s ih =>
    have hrest : opensNone s := (Bool.and_eq_true_iff.mp hs).2
    exact .char (fun n _ => Text.not_prefix_of_parted ⟨_,rfl⟩ hs) (ih hrest)

theorem eq_of_starts {n k : String} (hn : '\x7d' ∉ n.toList) (hk : '\x7d' ∉ k.toList)
    (h : token k.toList <+: token n.toList ++ t) : k = n := by
  obtain ⟨u,hu⟩ := h
  have hsplit : k.toList ++ '\x7d' :: ('\x7d' :: u) = n.toList ++ '\x7d' :: ('\x7d' :: t) := by
    simpa [token] using hu
  apply String.toList_injective
  rw [← Text.takeWhile_ne hk ('\x7d' :: u),hsplit,Text.takeWhile_ne hn]

/-- A token of a name that closes no brace is the slot of that name. -/
theorem Cut.token (hnames : ∀ k ∈ names, '\x7d' ∉ k.toList) (hn : n ∈ names) (ht : Cut names t parts) :
    Cut names (token n.toList ++ t) (.slot n :: parts) := by
  refine .slot ⟨hn,List.prefix_append _ _,fun k hk hprefix => ?_⟩ ?_
  · rw [eq_of_starts (hnames n hn) (hnames k hk) hprefix]
  · rwa [List.drop_left]

/-- Texts, each with the token of a name after it, and a last text. -/
def assembled (pieces : List (String × String)) (last : String) : List Char :=
  pieces.flatMap (fun p => p.1.toList ++ Template.token p.2.toList) ++ last.toList

/-- The parts of texts with slots between them. -/
def partsOf (pieces : List (String × String)) (last : String) : List Part :=
  pieces.flatMap (fun p => p.1.toList.map .char ++ [.slot p.2]) ++ last.toList.map .char

theorem cut_assembled {pieces : List (String × String)} {last : String}
    (hnames : ∀ k ∈ names, '\x7d' ∉ k.toList)
    (hpieces : ∀ p ∈ pieces, opensNone p.1.toList ∧ p.2 ∈ names) (hlast : opensNone last.toList)
    (ht : Cut names t parts) : Cut names (assembled pieces last ++ t) (partsOf pieces last ++ parts) := by
  induction pieces with
  | nil => exact Cut.text hlast ht
  | cons p pieces ih =>
    obtain ⟨⟨htext,hname⟩,hrest⟩ := List.forall_mem_cons.mp hpieces
    have hcut := Cut.text htext (Cut.token hnames hname (ih hrest))
    simpa [assembled,partsOf] using hcut

theorem filled_chars (m : Naming) (s : List Char) : (s.map Part.char).flatMap (Part.filled m) = s := by
  induction s with
  | nil => rfl
  | cons c s ih => simpa [Part.filled] using ih

variable {values : List (String × String)}

/-- Texts under names, each name once. -/
def Naming.ofTexts (values : List (String × String)) (h : (values.map Prod.fst).Nodup) : Naming where
  rows := values.map fun v => (v.1,.str v.2)
  nodup := by rwa [List.map_map]

theorem Naming.shown_ofTexts (h : (values.map Prod.fst).Nodup) (hn : n ∈ values.map Prod.fst) :
    (Naming.ofTexts values h).shown n = ((values.lookup n).getD "").toList := by
  obtain ⟨v,hv,rfl⟩ := List.mem_map.mp hn
  have hrow : (v.1,Value.str v.2) ∈ (Naming.ofTexts values h).rows := List.mem_map_of_mem hv
  rw [(Naming.ofTexts values h).shown_eq hrow,(Table.mem_iff_lookup h).mp hv]
  rfl

/-- What texts with tokens become when the template that begins with them is filled. -/
def filledWith (values : List (String × String)) (pieces : List (String × String)) (last : String) :
    List Char :=
  pieces.flatMap (fun p => p.1.toList ++ ((values.lookup p.2).getD "").toList) ++ last.toList

theorem flatMap_filled_partsOf (h : (values.map Prod.fst).Nodup) {pieces : List (String × String)}
    (hpieces : ∀ p ∈ pieces, p.2 ∈ values.map Prod.fst) (last : String) :
    (partsOf pieces last).flatMap (Part.filled (Naming.ofTexts values h)) =
      filledWith values pieces last := by
  rw [partsOf,filledWith,List.flatMap_append,filled_chars,List.flatMap_assoc]
  congr 1
  refine List.flatMap_congr fun p hp => ?_
  rw [List.flatMap_append,filled_chars,List.flatMap_singleton,Part.filled,
    Naming.shown_ofTexts h (hpieces p hp)]

/-- Where no text keeps `c` and `d` together and no value has a `c`, what they make keeps them apart. -/
theorem parted_filledWith {c d : Char} {pieces : List (String × String)} {last : String}
    (hpieces : ∀ p ∈ pieces, Text.parted c d p.1.toList ∧ c ∉ ((values.lookup p.2).getD "").toList)
    (hlast : Text.parted c d last.toList) : Text.parted c d (filledWith values pieces last) := by
  induction pieces with
  | nil => exact hlast
  | cons p pieces ih =>
    obtain ⟨⟨htext,hvalue⟩,hrest⟩ := List.forall_mem_cons.mp hpieces
    have hhead := Text.parted_append htext (Text.parted_of_notMem hvalue)
    simpa [filledWith] using Text.parted_append hhead (ih hrest)

/-- Filling a template that begins with texts and tokens puts the values between these texts. -/
theorem begins_fillNamed {template last : String} {pieces : List (String × String)}
    (hnodup : (values.map Prod.fst).Nodup) (hnames : ∀ n ∈ values.map Prod.fst, '\x7d' ∉ n.toList)
    (htemplate : assembled pieces last <+: template.toList)
    (hpieces : ∀ p ∈ pieces, opensNone p.1.toList ∧ p.2 ∈ values.map Prod.fst)
    (hlast : opensNone last.toList) : filledWith values pieces last <+: (fillNamed template values).toList := by
  have hvalues : ∀ n, n ∈ (Naming.ofTexts values hnodup).names ↔ n ∈ values.map Prod.fst := by
    simp [Naming.ofTexts,Naming.names]
  obtain ⟨t,ht⟩ := htemplate
  obtain ⟨parts,hparts,-⟩ := (Naming.ofTexts values hnodup).exists_cut t
  have hcut : Cut (Naming.ofTexts values hnodup).names template.toList (partsOf pieces last ++ parts) := by
    rw [← ht]
    refine cut_assembled (fun k hk => hnames k ((hvalues k).mp hk)) (fun p hp => ?_) hlast hparts
    exact ⟨(hpieces p hp).1,(hvalues _).mpr (hpieces p hp).2⟩
  have hfill : fillNamed template values = fill template (Naming.ofTexts values hnodup).entries := by
    simp [fillNamed,fill,Naming.entries,Naming.ofTexts,Function.comp_def,Value.display,Value.text]
  rw [hfill,fill_eq_of_cut hcut,String.toList_ofList,List.flatMap_append,
    flatMap_filled_partsOf hnodup fun p hp => (hpieces p hp).2]
  exact List.prefix_append _ _

end BlogSite.Template
