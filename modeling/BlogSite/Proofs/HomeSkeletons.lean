import BlogSite.Proofs.ThemeSkeletons
import BlogSite.Home

/-!
The fragments of the home page. Their tags depend on how many entries and tags there are and on where
there are badges. The numbers of posts, which are not escaped, have no characters with a meaning.
-/

namespace BlogSite.Home

open Html Html.Fragment

/-! ### Rows of blogs -/

/-- The digits and the sign of an integer. -/
theorem mem_intText {n : Int} {c : Char} (h : c ∈ Value.intText n) : c.isDigit ∨ c = '-' := by
  rw [Value.intText,List.mem_append] at h
  rcases h with h | h
  · refine .inr ?_
    split at h <;> simp_all
  · exact .inl (Nat.isDigit_of_mem_toDigits (b := 10) (by decide) (by decide) h)

theorem notMem_display_int (n : Int) {c : Char} (hdigit : c.isDigit = false) (hc : c ≠ '-') :
    c ∉ (String.ofList (Value.int n).display).toList := by
  intro h
  rw [String.toList_ofList] at h
  rcases mem_intText h with h | h
  · simp [hdigit] at h
  · exact hc h

/-- A number of posts between stretches of markup adds no tags to theirs. -/
theorem rigid_count {δ σ : Type} {shape : δ → σ} (count : δ → Int) : Rigid (fun x =>
    [markup ("</td>\n  <td class=\"word-bold\">" ++ String.ofList (Value.int (count x)).display ++
      "</td>\n</tr>")]) shape := by
  have hbefore : Kind.content.Leads "</td>\n  <td class=\"word-bold\">" .content := .lit (by decide)
  have hafter : Kind.content.Leads "</td>\n</tr>" .content := .lit (by decide)
  obtain ⟨k,hk⟩ := (Fragment.Leads.markup hbefore .nil).exists_hasSkeleton
  obtain ⟨l,hl⟩ := (Fragment.Leads.markup hafter .nil).exists_hasSkeleton
  refine ⟨fun _ => k ++ [] ++ l,fun x => ?_⟩
  have hcount : HasSkeleton [.markup (String.ofList (Value.int (count x)).display)] [] :=
    .markup (notMem_display_int _ (by decide) (by decide)) (notMem_display_int _ (by decide) (by decide))
  exact .markup_append ((HasSkeleton.markup_append (hk.append hcount)).append hl)

theorem leads_badge (isNew : Bool) :
    Kind.content.Leads ((if isNew then newBadge else "") ++ "</a></td>\n  <td>") .content := by
  cases isNew with
  | false => exact .trans (.stay (by decide) (by simp)) (.lit (by decide))
  | true => exact .lits (by decide)

/-- The tags of the row of a blog depend on whether there is a badge. -/
theorem rigid_blogRow :
    Rigid (fun x : Blog × Int × Bool => blogRow x.1 (.int x.2.1) x.2.2) fun x => x.2.2 := by
  have hfront : Rigid (fun x : Blog × Int × Bool => (blogRow x.1 .null x.2.2).dropLast)
      fun x => x.2.2 := by
    unfold blogRow
    simp only [List.dropLast]
    refine .of_blank ?_ ?_
    · rintro ⟨b,n,isNew⟩ ⟨b',n',isNew'⟩ h
      obtain rfl : isNew = isNew' := h
      rfl
    · rintro ⟨b,n,isNew⟩
      exact .markup (.lit (by decide)) (.value (.markup (.lit (by decide)) (.content (.markup
        (.lit (by decide)) (.content (.markup (leads_badge isNew) (.content (.markup (.lit (by decide))
        (.content .nil)))))))))
  refine (hfront.append (rigid_count fun x => x.2.1)).congr fun x => ?_
  simp only [blogRow,List.dropLast,List.cons_append,List.nil_append]

theorem getD_lookup_int (counts : List (String × Int)) (slug : String) :
    (((counts.map fun c => (c.1,Value.int c.2)).lookup slug).getD (.int 0)) =
      .int ((counts.lookup slug).getD 0) := by
  induction counts with
  | nil => rfl
  | cons c counts ih =>
    rw [List.map_cons,List.lookup_cons,List.lookup_cons]
    split
    · rfl
    · exact ih

/-- The tags of the rows depend on which of them have a badge. -/
theorem rigid_blogRows :
    Rigid (fun x : List Blog × List (String × Int) × List String =>
        blogRows x.1 (x.2.1.map fun c => (c.1,.int c.2)) x.2.2)
      fun x => x.1.map fun b => x.2.2.contains b.slug := by
  have hrows := (rigid_blogRow.join (HasSkeleton.markup (s := "\n") (by decide) (by decide))).comp
    fun x : List Blog × List (String × Int) × List String =>
      x.1.map fun b => (b,(x.2.1.lookup b.slug).getD 0,x.2.2.contains b.slug)
  refine (hrows.congr fun x => ?_).finer id fun x => ?_
  · simp only [blogRows,getD_lookup_int,List.map_map,Function.comp_def]
  · simp

/-! ### Latest posts -/

theorem rigid_tagsBlock {t : Theme} (ht : t.IsTidy) :
    Rigid (fun tags : List String => if (t.tagBadges tags).isEmpty then []
      else markup "<div style=\"margin-top:8px\">" :: t.tagBadges tags ++ [markup "</div>"])
      List.length := by
  have hopen : Rigid (fun _ : List String => [markup "<div style=\"margin-top:8px\">"]) List.length :=
    .of_leads (fun _ _ => rfl) fun _ => .markup (.lit (by decide)) .nil
  have hclose : Rigid (fun _ : List String => [markup "</div>"]) List.length :=
    .of_leads (fun _ _ => rfl) fun _ => .markup (.lit (by decide)) .nil
  refine (Rigid.nil.ite (c := (· = 0))
    ((hopen.append (Theme.rigid_tagBadges ht)).append hclose)).congr fun tags => ?_
  cases tags with
  | nil => rfl
  | cons tag tags => rfl

set_option maxRecDepth 4000 in
/-- The tags of the entry of a post depend on how many tags the post has. -/
theorem rigid_latestEntry :
    Rigid (fun e : Blog × Post => latestEntry e.1 e.2) fun e => e.2.tags.length := by
  have htidy : Theme.default.IsTidy := Theme.isTidy_of_mem_registry _ (by decide)
  unfold latestEntry
  refine .append (.append ?_ ((rigid_tagsBlock htidy).comp fun e : Blog × Post => e.2.tags)) ?_
  · exact .of_leads (fun _ _ => rfl) fun e =>
      .markup (.lit (by decide)) (.value (.markup (.lit (by decide)) (.value
      (.markup (.lits (by decide)) (.content (.markup (.lit (by decide)) (.content
      (.markup (.lit (by decide)) (.content (.markup (.lit (by decide)) (.content
      (.markup (.lit (by decide)) (.content (.markup (.lit (by decide)) (.content
      (.markup (.lit (by decide)) .nil))))))))))))))))
  · exact .of_leads (fun _ _ => rfl) fun e => .markup (.lit (by decide)) .nil

theorem rigid_latestPosts :
    Rigid latestPosts (List.map fun e : Blog × Post => e.2.tags.length) :=
  rigid_latestEntry.join (.markup (by decide) (by decide))

end BlogSite.Home
