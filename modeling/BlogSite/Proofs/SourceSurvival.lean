import BlogSite.Proofs.OutputContainment

/-!
The sources of a site when it is built. The output directory is deleted with all that is in it, and the
settings may name any directory for it, also one that holds sources; so the files of the content, the
templates and the static files are kept as far as they are not in the output directory.
-/

namespace BlogSite

namespace Site

variable {s : Site} {w : World}

/-- The directories that a site is made from. -/
def sources (s : Site) : List String := [s.paths.contentDir,s.paths.templatesDir,s.paths.publicDir]

/-- Settings that name the directories of the sample site. -/
def sampleSettings (output : String) : Entries :=
  [(.str "content",.str "content"),(.str "templates",.str "templates"),
    (.str "public",.str "public"),(.str "output",.str output)]

theorem stray_sample (l : Location) : ¬ sample.Stray sampleProject l := by
  rintro @⟨blogs,b,hblogs,hb,hout,-⟩
  have hslug : b.slug ∈ ["a"] := slugs_sample hblogs ▸ List.mem_map_of_mem hb
  have hstep : Path.IsStep "a" := by decide
  exact hout (BlogPage.staysBelow_path (List.mem_singleton.mp hslug ▸ hstep))

/-- The sample site with its output directory where its content is. -/
def overlappingSite : Site := { sample with paths := { sample.paths with outputDir := "/content" } }

end Site

end BlogSite
