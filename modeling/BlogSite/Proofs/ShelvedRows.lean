import BlogSite.Proofs.BuildCourse
import BlogSite.Proofs.TableRows

/-!
The shelf of the blogs that are written. It holds the posts of each slug once: those of the last blog with
that slug, whose page is the one that is left at the path that such blogs share. Where no two blogs have
one slug, the shelf is the row of blogs itself.
-/

namespace BlogSite

namespace Row

/-- The last of some rows with a slug. -/
def last? (rows : List Row) (slug : String) : Option Row :=
  rows.reverse.find? fun r => r.blog.slug = slug

/-- The row whose page is left at the path of a row: the last one with its slug. -/
def current (rows : List Row) (r : Row) : Row := (last? rows r.blog.slug).getD r

/-- The posts of rows by the slugs of their blogs. -/
def shelf (rows : List Row) : HomePage.Shelf :=
  Table.ofPairs (rows.map fun r => (r.blog.slug,r.posts))

variable {rows : List Row} {r : Row}

theorem last?_eq_some {slug : String} {r : Row} (h : last? rows slug = some r) :
    r ∈ rows ∧ r.blog.slug = slug :=
  ⟨List.mem_reverse.mp (List.mem_of_find?_eq_some h),by simpa using List.find?_some h⟩

theorem last?_current (hr : r ∈ rows) : last? rows r.blog.slug = some (current rows r) := by
  have hsome : (last? rows r.blog.slug).isSome :=
    List.find?_isSome.mpr ⟨r,List.mem_reverse.mpr hr,by simp⟩
  obtain ⟨r',hr'⟩ := Option.isSome_iff_exists.mp hsome
  rw [current,hr',Option.getD_some]

theorem current_mem (hr : r ∈ rows) : current rows r ∈ rows := (last?_eq_some (last?_current hr)).1

theorem slug_current (hr : r ∈ rows) : (current rows r).blog.slug = r.blog.slug :=
  (last?_eq_some (last?_current hr)).2

/-- The pages of rows with one slug have one path. -/
theorem path_current (hr : r ∈ rows) :
    BlogPage.path (current rows r).blog = BlogPage.path r.blog := by
  rw [BlogPage.path,BlogPage.path,slug_current hr]

/-- Where no two rows have one slug, the page of each is left at its path. -/
theorem current_eq (hdistinct : (rows.map fun r => r.blog.slug).Nodup) (hr : r ∈ rows) :
    current rows r = r :=
  List.inj_on_of_nodup_map hdistinct (current_mem hr) hr (slug_current hr)

theorem lookup_shelf (rows : List Row) (slug : String) :
    (shelf rows).lookup slug = (last? rows slug).map Row.posts := by
  rw [shelf,Table.lookup_ofPairs,← List.map_reverse,last?]
  induction rows.reverse with
  | nil => rfl
  | cons r rs ih =>
    rw [List.map_cons,List.lookup_cons,List.find?_cons]
    by_cases hslug : r.blog.slug = slug
    · simp [hslug]
    · have hother : (slug == r.blog.slug) = false := by simpa using Ne.symm hslug
      simp [hslug,hother,ih]

theorem lookup_shelf_of_mem (hr : r ∈ rows) :
    (shelf rows).lookup r.blog.slug = some (current rows r).posts := by
  rw [lookup_shelf,last?_current hr]
  rfl

/-- Where no two rows have one slug, each is on the shelf, in its place. -/
theorem shelf_eq (hdistinct : (rows.map fun r => r.blog.slug).Nodup) :
    shelf rows = rows.map fun r => (r.blog.slug,r.posts) := by
  rw [shelf,Table.ofPairs_of_nodup]
  rwa [List.map_map]

end Row

end BlogSite
