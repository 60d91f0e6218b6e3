import BlogSite.Proofs.PathTrails
import BlogSite.Proofs.SettingsFiles
import BlogSite.SitePaths

/-!
The places that settings name. Whatever text a setting has, its place is written in one way only: it is
absolute, leads straight down and stays as it is wherever it is seen from. It denotes what is reached by
following the names of the text one at a time, from the root of the project or from the root of the disk.
-/

namespace BlogSite

namespace Path

/-- Follows names from a place. An empty name and `.` stay there, `..` leads up, but not above the root. -/
def follow (at_ : List String) : List String → List String
  | [] => at_
  | n :: ns =>
    if n = "" ∨ n = "." then follow at_ ns
    else if n = ".." then follow at_.dropLast ns
    else follow (at_ ++ [n]) ns

/-- The place that an absolute path denotes. -/
def denoted (p : String) : List String := follow [] (names p)

/-- A path in its canonical form: a slash or two, and then names that lead down with a slash between each
two of them. -/
def IsCanonical (p : String) : Prop :=
  ∃ ns, (∀ n ∈ ns, IsStep n) ∧ (p = "/" ++ ofNames ns ∨ p = "//" ++ ofNames ns)

/-- A path with two slashes at its start and not a third one. -/
def StartsTwice (p : String) : Prop := ∃ s, p.toList = '/' :: '/' :: s ∧ s.head? ≠ some '/'

/-! ### Following names -/

theorem follow_eq {at_ : List String} (h : ".." ∉ at_) (ns : List String) :
    follow at_ ns = (ns.foldl (step true) at_.reverse).reverse := by
  induction ns generalizing at_ with
  | nil => simp [follow]
  | cons n ns ih =>
    rw [follow,List.foldl_cons]
    split
    · rename_i hstay
      rw [ih h]
      simp [step,hstay]
    rename_i hmove
    split
    · rename_i hback
      have hstep : step true at_.reverse n = at_.dropLast.reverse := by
        rcases List.eq_nil_or_concat at_ with rfl | ⟨up,last,rfl⟩
        · simp [step,hback]
        · have hlast : last ≠ ".." := fun heq => h (by simp [heq])
          simp [step,hback,hlast]
      rw [ih fun hmem => h (List.dropLast_subset at_ hmem),hstep]
    · rename_i hdown
      rw [ih (by simp [h,Ne.symm hdown])]
      simp [step,hmove,hdown]

theorem denoted_eq (p : String) : denoted p = place p := by
  rw [denoted,follow_eq (by simp)]
  rfl

/-! ### Slashes at the start -/

theorem startsTwice_cons {p : String} {c : Char} {s : List Char} (hp : p.toList = '/' :: c :: s) :
    StartsTwice p ↔ c = '/' ∧ s.head? ≠ some '/' := by
  simp [StartsTwice,hp]

theorem startsTwice_iff {p : String} : StartsTwice p ↔ leading p = 2 := by
  unfold leading
  split
  · rename_i s hs
    simp [startsTwice_cons hs]
  · rename_i s hthird hs
    rw [startsTwice_cons hs]
    refine iff_of_true ⟨rfl,fun hhead => ?_⟩ rfl
    obtain ⟨t,rfl⟩ := List.head?_eq_some_iff.mp hhead
    exact hthird t rfl
  · rename_i s _ hsecond hs
    refine iff_of_false ?_ (by decide)
    rintro ⟨t,ht,-⟩
    exact hsecond t (List.cons.inj (hs.symm.trans ht)).2
  · rename_i _ _ hfirst
    refine iff_of_false ?_ (by decide)
    rintro ⟨t,ht,-⟩
    exact hfirst _ ht

theorem head?_ne_of_not_isAbsolute {p : String} (hp : isAbsolute p = false) : p.toList.head? ≠ some '/' := by
  simpa [isAbsolute] using hp

theorem not_startsTwice_slash {p : String} (hp : isAbsolute p = false) : ¬ StartsTwice ("/" ++ p) := by
  rintro ⟨s,hs,-⟩
  have hrest : p.toList = '/' :: s := by simpa using hs
  exact head?_ne_of_not_isAbsolute hp (by simp [hrest])

/-- What is seen from an absolute path begins as that does. -/
theorem startsTwice_join {base p : String} (hbase : isAbsolute base = true) (hp : isAbsolute p = false) :
    StartsTwice (join base p) ↔ StartsTwice base := by
  obtain ⟨s,hs⟩ := isAbsolute_iff.mp hbase
  cases s with
  | nil =>
    obtain rfl : base = "/" := String.toList_injective hs
    have hjoin : join "/" p = "/" ++ p := by simp [join,hp]
    rw [hjoin]
    exact iff_of_false (not_startsTwice_slash hp) (not_startsTwice_slash (p := "") (by decide))
  | cons c t =>
    obtain ⟨u,hu,hhead⟩ : ∃ u, (join base p).toList = '/' :: c :: (t ++ u) ∧
        (t = [] → c = '/' → u.head? ≠ some '/') := by
      by_cases hend : base.toList.getLast? = some '/'
      · have hjoin : join base p = base ++ p := by simp [join,hp,hend]
        exact ⟨p.toList,by simp [hjoin,hs],fun _ _ => head?_ne_of_not_isAbsolute hp⟩
      · have hne : base ≠ "" := by
          rintro rfl
          exact absurd hbase (by decide)
        have hjoin : join base p = base ++ "/" ++ p := by simp [join,hp,hend,hne]
        refine ⟨'/' :: p.toList,by simp [hjoin,hs],?_⟩
        rintro rfl rfl
        exact absurd (by simp [hs]) hend
    rw [startsTwice_cons hu,startsTwice_cons hs]
    refine and_congr_right fun hc => ?_
    cases t with
    | nil => simpa using hhead rfl hc
    | cons d t => simp

theorem not_isAbsolute_ofNames {ns : List String} (h : ∀ n ∈ ns, IsStep n) :
    isAbsolute (ofNames ns) = false := by
  by_cases hne : ns = []
  · subst hne
    rfl
  · refine not_isAbsolute_of_isStep ?_
    rwa [names_ofNames hne fun n hn => (h n hn).noSlash]

theorem leading_slashes {k : Nat} (hk : k = 1 ∨ k = 2) {p : String} (hp : isAbsolute p = false) :
    leading (String.ofList (List.replicate k '/') ++ p) = k := by
  rcases hk with rfl | rfl
  · have habsolute : isAbsolute ("/" ++ p) = true := isAbsolute_iff.mpr ⟨p.toList,by simp⟩
    exact (leading_eq habsolute).resolve_right fun h => not_startsTwice_slash hp (startsTwice_iff.mpr h)
  · exact startsTwice_iff.mp ⟨p.toList,by simp,head?_ne_of_not_isAbsolute hp⟩

/-! ### Canonical paths -/

theorem isCanonical_slashes {k : Nat} (hk : k = 1 ∨ k = 2) {ns : List String} (h : ∀ n ∈ ns, IsStep n) :
    IsCanonical (String.ofList (List.replicate k '/') ++ ofNames ns) := by
  rcases hk with rfl | rfl
  · exact ⟨ns,h,Or.inl rfl⟩
  · exact ⟨ns,h,Or.inr rfl⟩

theorem IsCanonical.exists_slashes {p : String} (h : IsCanonical p) :
    ∃ k ns, (k = 1 ∨ k = 2) ∧ (∀ n ∈ ns, IsStep n) ∧
      p = String.ofList (List.replicate k '/') ++ ofNames ns := by
  obtain ⟨ns,hns,rfl | rfl⟩ := h
  · exact ⟨1,ns,Or.inl rfl,hns,rfl⟩
  · exact ⟨2,ns,Or.inr rfl,hns,rfl⟩

/-- The shortest form of an absolute path is canonical and denotes what the path denotes. -/
theorem isCanonical_normalise {p : String} (hp : isAbsolute p = true) :
    IsCanonical (normalise p) ∧ denoted (normalise p) = denoted p ∧
      (StartsTwice (normalise p) ↔ StartsTwice p) := by
  have hsteps : ∀ n ∈ place p, IsStep n := fun n hn => isStep_of_mem_place hn
  refine ⟨?_,?_,?_⟩
  · rw [normalise_eq hp]
    exact isCanonical_slashes (leading_eq hp) hsteps
  · rw [denoted_eq,denoted_eq]
    exact (isDirect_normalise hp).2
  · rw [startsTwice_iff,startsTwice_iff,normalise_eq hp,
      leading_slashes (leading_eq hp) (not_isAbsolute_ofNames hsteps)]

/-- A canonical path is in its shortest form. -/
theorem IsCanonical.normalise_eq_self {p : String} (h : IsCanonical p) :
    isAbsolute p = true ∧ normalise p = p := by
  obtain ⟨k,ns,hk,hns,rfl⟩ := h.exists_slashes
  obtain ⟨hdirect,hplace⟩ := isDirect_slashes (k := k) (by omega) hns
  refine ⟨hdirect.absolute,?_⟩
  rw [normalise_eq hdirect.absolute,hplace,leading_slashes hk (not_isAbsolute_ofNames hns)]

/-- A canonical path that is no root ends in a character of its last name. -/
theorem IsCanonical.slashes_or_last {p : String} (h : IsCanonical p) :
    (∃ q, p = String.ofList q ++ "/" ∧ ∀ c ∈ q, c = '/') ∨ ∃ t c, p = String.ofList (t ++ [c]) ∧ c ≠ '/' := by
  obtain ⟨k,ns,hk,hns,rfl⟩ := h.exists_slashes
  rcases List.eq_nil_or_concat ns with rfl | ⟨up,last,rfl⟩
  · refine Or.inl ?_
    rcases hk with rfl | rfl
    · exact ⟨[],rfl,by simp⟩
    · exact ⟨['/'],rfl,by simp⟩
  · have hnames : names (String.ofList (List.replicate k '/') ++ ofNames (up.concat last)) =
        List.replicate k "" ++ up ++ [last] := by
      rw [names_replicate_append,names_ofNames (by simp) fun n hn => (hns n hn).noSlash]
      simp
    obtain ⟨t,c,ht,hc⟩ := exists_last_of_names (hns last (by simp)).ne_empty
      (by rwa [String.ofList_toList])
    exact Or.inr ⟨t,c,by rw [← ht,String.ofList_toList],hc⟩

/-- What is found by a name in a canonical path lies directly in it. -/
theorem IsCanonical.parent_join {p n : String} (h : IsCanonical p) (hn : IsStep n) :
    parent (join p n) = p := by
  have hrelative : isAbsolute n = false :=
    not_isAbsolute_of_isStep (by simpa [names_of_noSlash hn.noSlash] using hn)
  rcases h.slashes_or_last with ⟨q,rfl,hq⟩ | ⟨t,c,rfl,hc⟩
  · have hjoin : join (String.ofList q ++ "/") n = String.ofList q ++ "/" ++ n := by
      simp [join,hrelative]
    exact parent_of_slashes (by simp [hjoin]) hn.noSlash hq
  · have hjoin : join (String.ofList (t ++ [c])) n = String.ofList (t ++ [c]) ++ "/" ++ n := by
      simp [join,hrelative,hc]
    refine parent_of_ne_slash ?_ hn.noSlash hc
    rw [hjoin]
    simp

end Path

namespace SitePaths

open BlogSite.Path

/-- `Resolves homes root value dir`: a setting with this value names this directory. -/
structure Resolves (homes : Homes) (root value dir : String) : Prop where
  canonical : IsCanonical dir
  settled : ∀ homes' root', place homes' root' dir = dir
  absolute : isAbsolute (expandHome homes value) = true →
    (∀ root', place homes root' value = dir) ∧ denoted dir = denoted (expandHome homes value) ∧
      (StartsTwice dir ↔ StartsTwice (expandHome homes value))
  relative : isAbsolute (expandHome homes value) = false →
    denoted dir = follow (denoted root) (names (expandHome homes value)) ∧
      (StartsTwice dir ↔ StartsTwice root)

variable {homes : Homes} {root value : String}

theorem place_of_isAbsolute (root : String) (h : isAbsolute (expandHome homes value) = true) :
    place homes root value = normalise (expandHome homes value) := by
  rw [place,join,if_pos h]

/-- A relative path denotes what its names lead to from what the root denotes. -/
theorem denoted_join (root : String) {p : String} (hp : isAbsolute p = false) :
    denoted (join root p) = follow (denoted root) (names p) := by
  have hback : ".." ∉ denoted root := by
    rw [denoted_eq]
    exact fun h => (isStep_of_mem_place h).ne_back rfl
  rw [follow_eq hback,denoted_eq,denoted_eq,Path.place,Path.place,← walked_legs,← walked_legs,
    legs_join root hp,walked,walked,List.foldl_append,List.reverse_reverse]
  exact congrArg List.reverse (foldl_step_filter true (names p) _)

theorem expandHome_of_isAbsolute (homes : Homes) {p : String} (hp : isAbsolute p = true) :
    expandHome homes p = p := by
  obtain ⟨s,hs⟩ := isAbsolute_iff.mp hp
  simp [expandHome,hs]

theorem place_resolves (homes : Homes) (hroot : isAbsolute root = true) (value : String) :
    Resolves homes root value (place homes root value) := by
  obtain ⟨hcanonical,hdenoted,htwice⟩ :=
    isCanonical_normalise (isAbsolute_join hroot (expandHome homes value))
  constructor
  · exact hcanonical
  · intro homes' root'
    obtain ⟨habsolute,hnormal⟩ := hcanonical.normalise_eq_self
    have hexpand := expandHome_of_isAbsolute homes' habsolute
    exact (place_of_isAbsolute root' (hexpand.symm ▸ habsolute)).trans (hexpand.symm ▸ hnormal)
  · intro h
    rw [place_of_isAbsolute root h]
    exact ⟨fun root' => place_of_isAbsolute root' h,(isCanonical_normalise h).2⟩
  · intro h
    exact ⟨hdenoted.trans (denoted_join root h),htwice.trans (startsTwice_join hroot h)⟩

/-- Settings with texts for the four directories name them. Each is absolute, in its canonical form and
denotes what its text leads to; and the list of blogs lies directly in the directory of the content. -/
theorem ofSettings_resolves (homes : Homes) (hroot : isAbsolute root = true) {settings : Entries}
    {content templates statics output : String}
    (hcontent : settings.find? (.str "content") = some (.str content))
    (htemplates : settings.find? (.str "templates") = some (.str templates))
    (hstatics : settings.find? (.str "public") = some (.str statics))
    (houtput : settings.find? (.str "output") = some (.str output)) :
    ∃ p, ofSettings homes root settings = .ok p ∧
      Resolves homes root content p.contentDir ∧ Resolves homes root templates p.templatesDir ∧
      Resolves homes root statics p.publicDir ∧ Resolves homes root output p.outputDir ∧
      parent p.blogList = p.contentDir ∧ name p.blogList = "blogs.json" := by
  have hplace : ∀ {key value}, settings.find? (.str key) = some (.str value) →
      placeOf homes root settings key = .ok (place homes root value) := by
    intro key value h
    rw [placeOf,h]
  have hcontents := place_resolves homes hroot content
  have hblogs : IsStep "blogs.json" := by decide
  have hpaths : ofSettings homes root settings =
      .ok ⟨place homes root content,place homes root templates,place homes root statics,
        place homes root output⟩ := by
    rw [ofSettings,hplace hcontent,hplace htemplates,hplace hstatics,hplace houtput]
    rfl
  refine ⟨_,hpaths,?_⟩
  simp only [blogList]
  exact ⟨hcontents,place_resolves homes hroot templates,place_resolves homes hroot statics,
    place_resolves homes hroot output,hcontents.canonical.parent_join hblogs,name_join _ hblogs.noSlash⟩

/-- One's own home and that of one other user. -/
def sampleHomes : Homes where
  own := some "/home/a/"
  ofUser? user := if user = "b" then some "//srv/b" else none

def crookedSettings : Entries :=
  [(.str "content",.str "~/site//posts/.."),(.str "templates",.str ""),
    (.str "public",.str "~b/./static/"),(.str "output",.str "../../../out")]

theorem ofSettings_resolves_crooked :
    (isAbsolute "/project/site" = true ∧
      crookedSettings.find? (.str "content") = some (.str "~/site//posts/..") ∧
      crookedSettings.find? (.str "templates") = some (.str "") ∧
      crookedSettings.find? (.str "public") = some (.str "~b/./static/") ∧
      crookedSettings.find? (.str "output") = some (.str "../../../out")) ∧
    ∃ p, p = ⟨"/home/a/site","/project/site","//srv/b/static","/out"⟩ ∧
      ofSettings sampleHomes "/project/site" crookedSettings = .ok p ∧
      Resolves sampleHomes "/project/site" "~/site//posts/.." p.contentDir ∧
      Resolves sampleHomes "/project/site" "" p.templatesDir ∧
      Resolves sampleHomes "/project/site" "~b/./static/" p.publicDir ∧
      Resolves sampleHomes "/project/site" "../../../out" p.outputDir ∧
      parent p.blogList = p.contentDir ∧ name p.blogList = "blogs.json" := by
  have hroot : isAbsolute "/project/site" = true := by decide
  have hcontent : crookedSettings.find? (.str "content") = some (.str "~/site//posts/..") := rfl
  have htemplates : crookedSettings.find? (.str "templates") = some (.str "") := rfl
  have hstatics : crookedSettings.find? (.str "public") = some (.str "~b/./static/") := rfl
  have houtput : crookedSettings.find? (.str "output") = some (.str "../../../out") := rfl
  obtain ⟨p,hp,hplaces⟩ :=
    ofSettings_resolves sampleHomes hroot hcontent htemplates hstatics houtput
  have hpaths : ofSettings sampleHomes "/project/site" crookedSettings =
      .ok ⟨"/home/a/site","/project/site","//srv/b/static","/out"⟩ := by
    decide +kernel
  exact ⟨⟨hroot,hcontent,htemplates,hstatics,houtput⟩,p,Except.ok.inj (hp.symm.trans hpaths),hp,hplaces⟩

end SitePaths

end BlogSite
