import BlogSite.Proofs.ConfinedBuilds
import BlogSite.Proofs.RepeatedBuilds

/-!
What a build can reach. However it ends, it leaves everything outside of the output directory as it was,
but for the log file, for directories that are missing on the way down to the output directory, and for
blogs whose slugs lead out of it: slugs are taken as they are listed, and the pages of such a blog are
written wherever they lead.
-/

namespace BlogSite

namespace Site

variable {s : Site} {w : World}

/-- A location that pages of a listed blog pass on their way, where this leads out of the output
directory. -/
inductive Stray (s : Site) (w : World) (l : Location) : Prop
  | passed {blogs : List Blog} {b : Blog} (listed : s.Lists w blogs) (mem : b ∈ blogs)
      (out : ¬ Path.StaysBelow (BlogPage.path b)) (passes : s.BlogPasses b l)

theorem confined_stray (hs : Path.IsDirect s.paths.outputDir) (hw : w.disk.IsTree) :
    s.Confined (s.Stray w) w (s.build.go w).2 := by
  refine confined_build hs hw.named fun blogs hblogs b hb => ?_
  by_cases hbelow : Path.StaysBelow (BlogPage.path b)
  · exact Or.inl hbelow
  · exact Or.inr fun l hl => .passed hblogs hb hbelow hl

theorem slugs_sample {blogs : List Blog} (h : sample.Lists sampleProject blogs) :
    blogs.map Blog.slug = ["a"] :=
  Run.eq_of_toOption_map (g := List.map Blog.slug) (by decide +kernel) h

/-- What a build creates, changes or deletes, whether it succeeds or fails, is in the output directory or
is this directory itself; or it is the log file, a directory made above the output directory because it
was missing, or on the way of a page that a listed blog has out of the output directory. -/
theorem build_contained (hs : Path.IsDirect s.paths.outputDir) (hw : w.disk.IsTree) {l : Location}
    (hl : (s.build.go w).2.disk.entry? l ≠ w.disk.entry? l) :
    s.outputPlace <+: l ∨ w.LogAt l ∨
      (l <+: s.outputPlace ∧ w.disk.entry? l = none ∧
        (s.build.go w).2.disk.entry? l = some .directory) ∨
      s.Stray w l := by
  rcases (confined_stray hs hw).disk.entry l with hsame | (hbelow | hlog | hstray) | habove
  · exact absurd hsame hl
  · exact Or.inl hbelow
  · exact Or.inr (Or.inl hlog)
  · exact Or.inr (Or.inr (Or.inr hstray))
  · exact Or.inr (Or.inr (Or.inl habove))

theorem build_contained_sample :
    (Path.IsDirect sample.paths.outputDir ∧ loggedProject.disk.IsTree ∧
      (sample.build.go loggedProject).2.disk.entry? ["out","index.html"] ≠
        loggedProject.disk.entry? ["out","index.html"]) ∧
    (sample.outputPlace <+: ["out","index.html"] ∨ loggedProject.LogAt ["out","index.html"] ∨
      (["out","index.html"] <+: sample.outputPlace ∧
        loggedProject.disk.entry? ["out","index.html"] = none ∧
        (sample.build.go loggedProject).2.disk.entry? ["out","index.html"] = some .directory) ∨
      sample.Stray loggedProject ["out","index.html"]) := by
  have hhome : (sample.build.go loggedProject).2.disk.entry? ["out","index.html"] ≠
      loggedProject.disk.entry? ["out","index.html"] := by decide +kernel
  exact ⟨⟨isApart_sample.output,isSound_loggedProject.tree,hhome⟩,
    build_contained isApart_sample.output isSound_loggedProject.tree hhome⟩

/-- A project with a blog whose slug leads out of the output directory. -/
def strayProject : World where
  disk :=
    { entries :=
        [(["content"],.directory),
          (["content","blogs.json"],.file "[\x7b\"slug\":\"../../x\"\x7d]".toUTF8),
          (["templates"],.directory),(["templates","home.html"],.file "Home".toUTF8),
          (["templates","404.html"],.file "Lost".toUTF8),(["templates","word-retro"],.directory),
          (["templates","word-retro","blog-list.html"],.file "Blog".toUTF8)]
      distinct := by decide }

/-- The page of this blog is written next to the output directory. -/
theorem build_strays :
    (sample.build.go strayProject).1.isOk = true ∧
    strayProject.disk.entry? ["x","index.html"] = none ∧
    ((sample.build.go strayProject).2.disk.entry? ["x","index.html"]).isSome = true ∧
    ¬ sample.outputPlace <+: ["x","index.html"] := by
  have hrun : ((sample.build.go strayProject).1.isOk,
      ((sample.build.go strayProject).2.disk.entry? ["x","index.html"]).isSome) = (true,true) := by
    decide +kernel
  obtain ⟨hok,hpage⟩ := Prod.mk.inj hrun
  rw [outputPlace_sample]
  exact ⟨hok,by decide,hpage,by decide⟩

end Site

end BlogSite
