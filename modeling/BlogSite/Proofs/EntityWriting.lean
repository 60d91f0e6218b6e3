import BlogSite.Page
import BlogSite.Proofs.HtmlReading

/-!
Escaping as one substitution. The characters are replaced one after the other, and the replacements of
one are seen by the next. As the ampersand comes first, the outcome is that of replacing all of them
at once, and it can be read back.
-/

namespace BlogSite.Html

/-- Replacing the characters in turn is writing each of them on its own. -/
theorem escape_eq_flatMap (s : List Char) : escape s = s.flatMap written := by
  induction s with
  | nil => rfl
  | cons c s ih => rw [escape_cons,ih,List.flatMap_cons]

/-- An ampersand that is written for a character begins its entity. -/
theorem mem_entities_of_written {c : Char} {a b : List Char} (h : written c = a ++ '&' :: b) :
    (c,written c) ∈ entities ∧ a = [] := by
  by_cases hc : c ∈ ['&','<','>','"']
  · obtain ⟨r,hr,hnone,he⟩ : ∃ r, written c = '&' :: r ∧ '&' ∉ r ∧ (c,written c) ∈ entities := by
      simp only [List.mem_cons,List.not_mem_nil,or_false] at hc
      rcases hc with rfl | rfl | rfl | rfl
      · exact ⟨"amp;".toList,by decide⟩
      · exact ⟨"lt;".toList,by decide⟩
      · exact ⟨"gt;".toList,by decide⟩
      · exact ⟨"quot;".toList,by decide⟩
    refine ⟨he,?_⟩
    cases a with
    | nil => rfl
    | cons x a =>
      rw [hr,List.cons_append,List.cons.injEq] at h
      exact absurd (h.2 ▸ List.mem_append_right a List.mem_cons_self) hnone
  · rw [written_of_notMem hc] at h
    have hmem : '&' ∈ [c] := h ▸ List.mem_append_right a List.mem_cons_self
    rw [List.mem_singleton] at hmem
    exact absurd (by simp [← hmem]) hc

/-- Every ampersand of an escaped text begins an entity. -/
theorem entity_of_escape {s a b : List Char} (h : escape s = a ++ '&' :: b) :
    ∃ e ∈ entities, e.2 <+: '&' :: b := by
  induction s generalizing a with
  | nil => simp at h
  | cons c s ih =>
    rw [escape_cons,List.append_eq_append_iff] at h
    -- the ampersand stands behind what is written for the first character, or in it
    obtain ⟨a',-,hs⟩ | ⟨w,hw,hb⟩ := h
    · exact ih hs
    · cases w with
      | nil => exact ih (a := []) hb.symm
      | cons x w =>
        rw [List.cons_append,List.cons.injEq] at hb
        obtain ⟨rfl,rfl⟩ := hb
        obtain ⟨he,rfl⟩ := mem_entities_of_written hw
        exact ⟨_,he,by rw [hw]; exact List.prefix_append _ _⟩

end BlogSite.Html

namespace BlogSite

open Html

theorem toList_escapeText (s : String) : (escapeText s).toList = escape s.toList := by
  simp [escapeText,escapeValue,Value.text,Value.display]

/-- Escaping writes every character of a text on its own, whatever stands around it. No character that
begins or ends something is left, every ampersand begins an entity, and one pass over the entities
gives the text back, so that no two texts are escaped to one. -/
theorem escapeText_substitutes :
    (∀ s, escapeText s = String.ofList (s.toList.flatMap written)) ∧
    (∀ s t, escapeText (s ++ t) = escapeText s ++ escapeText t) ∧
    (∀ s, ∀ c ∈ ['<','>','"'], c ∉ (escapeText s).toList) ∧
    (∀ s a b, (escapeText s).toList = a ++ '&' :: b → ∃ e ∈ entities, e.2 <+: '&' :: b) ∧
    (∀ s, String.ofList (unescape (escapeText s).toList) = s) ∧
    Function.Injective escapeText := by
  have hback : ∀ s, String.ofList (unescape (escapeText s).toList) = s := by
    intro s
    rw [toList_escapeText,unescape_escape,String.ofList_toList]
  refine ⟨?_,?_,?_,?_,hback,?_⟩
  · intro s
    rw [← escape_eq_flatMap,← toList_escapeText,String.ofList_toList]
  · intro s t
    rw [← String.toList_inj]
    simp only [String.toList_append,toList_escapeText,escape_append]
  · intro s c hc
    rw [toList_escapeText]
    exact notMem_escape hc s.toList
  · intro s a b h
    rw [toList_escapeText] at h
    exact entity_of_escape h
  · intro s t h
    calc s = String.ofList (unescape (escapeText s).toList) := (hback s).symm
      _ = String.ofList (unescape (escapeText t).toList) := by rw [h]
      _ = t := hback t

example : escapeText "&lt; <\"&\">" = "&amp;lt; &lt;&quot;&amp;&quot;&gt;" := by decide +kernel

end BlogSite
