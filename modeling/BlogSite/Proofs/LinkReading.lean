import BlogSite.Page
import BlogSite.Proofs.HomeSkeletons
import BlogSite.Proofs.TagAttributes

/-!
The links that a reader finds in the fragments of a page. Cards, rows and entries have one link each, in
their first tag, and a slug is in it as a text: so a reader finds the link with the slug as it was,
whatever characters that has.
-/

namespace BlogSite

open Html

/-- The attribute that holds where a link leads. -/
def linkAttribute : List Char := ['h','r','e','f']

/-- The links on a page, in their order. -/
def links (page : String) : List String := attributeValues (String.ofList linkAttribute) page

theorem linkAttribute_notMem : linkAttribute ∉ looks := by decide

namespace Html

variable {wanted v w suffix : List Char} {s : List Char} {q : Place}

/-- A text between two that stand for themselves. -/
theorem escape_between {a b : String} (x : String) (ha : escape a.toList = a.toList)
    (hb : escape b.toList = b.toList) :
    escape (a ++ x ++ b).toList = a.toList ++ escape x.toList ++ b.toList := by
  rw [String.toList_append,String.toList_append,escape_append,escape_append,ha,hb]

/-- A value is taken with what was read of it before. -/
theorem Place.Reads.prefixed (u : List Char) (h : (Place.value wanted v).Reads wanted s [w] q) :
    (Place.value wanted (u ++ v)).Reads wanted s [u ++ w] q := by
  induction s generalizing v with
  | nil => exact absurd h.values (by simp [Place.values])
  | cons c s ih =>
    obtain ⟨hafter,hvalues⟩ := h
    by_cases hc : c = '"'
    · subst hc
      simp only [Place.values,Place.ended,Place.next,and_self,if_true,List.singleton_append,
        List.cons.injEq] at hvalues
      obtain ⟨rfl,hrest⟩ := hvalues
      exact .take ⟨hafter,hrest⟩
    · have hnext : ∀ x, (Place.value wanted x).next c = .value wanted (x ++ [c]) := fun x => if_neg hc
      have hvalues' : ∀ x, (Place.value wanted x).values wanted (c :: s) =
          (Place.value wanted (x ++ [c])).values wanted s := fun x => by
        simp [Place.values,Place.ended,hc,hnext]
      have hrest := ih (v := v ++ [c]) ⟨hnext v ▸ hafter,hvalues' v ▸ hvalues⟩
      rw [← List.append_assoc] at hrest
      refine ⟨?_,(hvalues' (u ++ v)).trans hrest.values⟩
      change ((Place.value wanted (u ++ v)).next c).after s = q
      rw [hnext,hrest.after]

/-- What begins with a link that has a text in it, and has no other link. -/
theorem Fragment.Reads.link {f rest : Fragment} {e : String} (x : String)
    (hf : Place.content.Reads linkAttribute (f.flatMap chars) [] (.value linkAttribute v))
    (he : (Place.value linkAttribute []).Reads linkAttribute e.toList [suffix] .content)
    (hrest : Fragment.Reads linkAttribute rest []) :
    Fragment.Reads linkAttribute (f ++ .text x :: .markup e :: rest)
      [v ++ escape x.toList ++ suffix] := by
  have hx : '"' ∉ escape x.toList := notMem_escape (by decide) _
  have hend := Place.Reads.prefixed (v ++ escape x.toList) he
  rw [List.append_nil] at hend
  have hall := ((hf.append (.value hx)).append hend).append hrest
  unfold Fragment.Reads
  simpa [chars] using hall

end Html

namespace Theme

variable {t : Theme}

/-! ### Cards of posts -/

theorem links_cardOpen (p : Post) (c : String) (hc : '"' ∉ c.toList) :
    Fragment.Reads linkAttribute (cardOpen p c) [escape ("posts/" ++ p.slug ++ ".html").toList] := by
  have hslug : '"' ∉ escape p.slug.toList := notMem_escape (by decide) _
  have htags : '"' ∉ escape (",".intercalate p.tags).toList := notMem_escape (by decide) _
  have hopen : Place.content.Reads linkAttribute "<a href=\"posts/".toList []
      (.value linkAttribute "posts/".toList) := by decide
  have hlink : (Place.value linkAttribute []).Reads linkAttribute
      (".html\" class=\"" ++ c ++ "\" data-post-tags=\"").toList [".html".toList]
      (.value tagsAttribute []) :=
    .trans (.trans (q := .value "class".toList []) (by decide) (.value hc))
      (.close (.passes linkAttribute_notMem (by decide)) (by decide))
  have hend : (Place.value tagsAttribute (escape (",".intercalate p.tags).toList)).Reads linkAttribute
      "\">".toList [] .content := .close (.passes linkAttribute_notMem (by decide)) (by decide)
  have hlinked := hlink.prefixed ("posts/".toList ++ escape p.slug.toList)
  rw [List.append_nil] at hlinked
  have hcard := (((hopen.append (.value hslug)).append hlinked).append (.value htags)).append hend
  rw [escape_between p.slug (by decide) (by decide)]
  unfold Fragment.Reads
  simpa [cardOpen,Fragment.chars,markup,text] using hcard

/-- The cards of posts lead to their pages, card by card. -/
theorem links_postList (ht : t.IsPlain) (posts : List Post) :
    links (t.postList posts).render = posts.map fun p => "posts/" ++ p.slug ++ ".html" :=
  (reads_postList linkAttribute_notMem links_cardOpen ht posts).attributeValues

/-- The card of a neighbour leads to its page; where there is none, nothing leads anywhere. -/
theorem links_navCard (ht : t.IsPlain) (post : Option Post) (label : Value) :
    links (t.navCard post label).render = post.toList.map fun p => p.slug ++ ".html" := by
  refine Fragment.Reads.attributeValues ?_
  have hw := linkAttribute_notMem
  unfold navCard
  cases post with
  | none => exact .markup (.lit hw (by decide))
  | some p =>
    have hslug := escape_between (a := "") p.slug (b := ".html") (by decide) (by decide)
    rw [String.empty_append] at hslug
    rw [Option.toList_some,List.map_singleton,hslug]
    cases t.layout
    case document =>
      refine .link (f := [markup "<a href=\""]) p.slug (by decide) (by decide +kernel) ?_
      exact .cons (.text _) (.cons (.markup (.lits hw (by decide +kernel))) (.cons (.text _)
        (.cons (.markup (.lit hw (by decide +kernel))) (.cons (.text _) (.markup (.lit hw (by decide)))))))
    -- The other layouts differ in their class names, which the theme makes.
    all_goals
      refine .link (f := [markup "<a href=\""]) p.slug (by decide) (.classed hw (.classed hw (by decide)
        (ht.cls (by decide)) (by decide)) (ht.cls (by decide)) (by decide)) ?_
      refine .cons (.text _) (.cons (.markup ?_) (.cons (.text _) (.cons (.markup ?_)
        (.cons (.text _) (.markup (.lit hw (by decide)))))))
      · exact .classed hw (.lit hw (by decide)) (ht.cls (by decide)) (by decide)
      · exact .classed hw (.lit hw (by decide)) (ht.cls (by decide)) (by decide)

end Theme

/-! ### Rows and entries of the home page -/

namespace Home

/-- The row of a blog leads to its page. -/
theorem links_blogRow (b : Blog) (n : Int) (isNew : Bool) :
    Fragment.Reads linkAttribute (blogRow b (.int n) isNew)
      [escape ("blogs/" ++ b.slug ++ "/index.html").toList] := by
  have hw := linkAttribute_notMem
  have hcount : '<' ∉ (String.ofList (Value.int n).display).toList :=
    notMem_display_int n (by decide) (by decide)
  rw [escape_between b.slug (by decide) (by decide)]
  refine .link (f := [markup "<tr>\n  <td><a href=\"blogs/"]) b.slug (by decide) (by decide +kernel) ?_
  refine .cons (.text _) (.cons (.markup (.lit hw (by decide))) (.cons (.text _) (.cons (.markup ?_)
    (.cons (.text _) (.cons (.markup (.lit hw (by decide))) (.cons (.text _) (.markup ?_)))))))
  · cases isNew with
    | false => exact .trans (q := .content) (.passes hw (by decide)) (.lit hw (by decide))
    | true => exact .lits hw (by decide +kernel)
  · exact .trans (.trans (.lit hw (by decide)) (.content hcount)) (.lit hw (by decide))

/-- The rows lead to the pages of their blogs, row by row. -/
theorem links_blogRows (blogs : List Blog) (counts : List (String × Int)) (recent : List String) :
    links (blogRows blogs (counts.map fun c => (c.1,.int c.2)) recent).render =
      blogs.map fun b => "blogs/" ++ b.slug ++ "/index.html" := by
  refine Fragment.Reads.attributeValues (.join (.markup (.lit linkAttribute_notMem (by decide))) ?_)
  intro b _
  rw [getD_lookup_int]
  exact links_blogRow b _ _

/-- The entry of a post leads to its page. -/
theorem links_latestEntry (b : Blog) (p : Post) :
    Fragment.Reads linkAttribute (latestEntry b p)
      [escape ("blogs/" ++ b.slug ++ "/posts/" ++ p.slug ++ ".html").toList] := by
  have hw := linkAttribute_notMem
  have hplain : Theme.default.IsPlain := Theme.isPlain_of_mem_registry _ (by decide)
  have hblog : '"' ∉ escape b.slug.toList := notMem_escape (by decide) _
  have hfront := escape_between (a := "blogs/") (b := "/posts/") b.slug (by decide) (by decide)
  have hend : escape ".html".toList = ".html".toList := by decide
  rw [String.toList_append,String.toList_append,escape_append,escape_append,hfront,hend]
  have hopen : Place.content.Reads linkAttribute "<a href=\"blogs/".toList []
      (.value linkAttribute "blogs/".toList) := by decide
  have hposts : '"' ∉ "/posts/".toList := by decide
  unfold latestEntry
  refine (Fragment.Reads.and (.link (f := [markup "<a href=\"blogs/",text b.slug,markup "/posts/"])
    p.slug ?_ (by decide +kernel) ?_) ?_).and (.markup (.lit hw (by decide)))
  · simpa [Fragment.chars,markup,text] using (hopen.append (.value hblog)).append (.value hposts)
  · exact .cons (.text _) (.cons (.markup (.lit hw (by decide))) (.cons (.text _)
      (.cons (.markup (.lit hw (by decide +kernel))) (.cons (.text _)
      (.cons (.markup (.lit hw (by decide))) (.cons (.text _)
      (.cons (.markup (.lit hw (by decide))) (.cons (.text _)
      (.cons (.markup (.lit hw (by decide +kernel))) (.cons (.text _)
      (.markup (.lit hw (by decide)))))))))))))
  · split
    · exact .nil
    · exact .cons (.markup (.lit hw (by decide))) ((Theme.reads_tagBadges hw hplain p.tags).and
        (.markup (.lit hw (by decide))))

/-- The entries lead to the pages of their posts, entry by entry. -/
theorem links_latestPosts (entries : List (Blog × Post)) :
    links (latestPosts entries).render =
      entries.map fun e => "blogs/" ++ e.1.slug ++ "/posts/" ++ e.2.slug ++ ".html" :=
  Fragment.Reads.attributeValues (.join (.markup (.lit linkAttribute_notMem (by decide)))
    fun e _ => links_latestEntry e.1 e.2)

end Home

end BlogSite
