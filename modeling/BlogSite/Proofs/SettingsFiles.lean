import BlogSite.Proofs.KeyedEntries
import BlogSite.Proofs.RunOutcomes
import BlogSite.Settings

/-!
The settings files of a project. The first of the three files that is there counts, whatever it holds. What it
holds is a mapping or cannot be used; loading writes the mapping over the settings that are known, and changes
nothing where there is no mapping to be had.
-/

namespace BlogSite

/-! ### Endings of paths -/

namespace Path

/-- The last name of a path is what comes after its last slash. -/
theorem name_of_split {p : String} {s : List Char} {n : String} (hn : '/' ∉ n.toList)
    (hp : p.toList.reverse = n.toList.reverse ++ s) (hs : s = [] ∨ s.head? = some '/') : name p = n := by
  have hall : ∀ c ∈ n.toList.reverse, (c != '/') = true := by
    intro c hc
    have hne : c ≠ '/' := fun h => hn (h ▸ List.mem_reverse.mp hc)
    simpa using hne
  have hend : s.takeWhile (· != '/') = [] := by
    rcases hs with rfl | hs
    · rfl
    · obtain ⟨t,rfl⟩ := List.head?_eq_some_iff.mp hs
      rfl
  unfold name
  rw [hp,List.takeWhile_append_of_pos hall,hend,List.append_nil,List.reverse_reverse,String.ofList_toList]

theorem name_join (base : String) {n : String} (hn : '/' ∉ n.toList) : name (join base n) = n := by
  have hrelative : isAbsolute n = false := by
    unfold isAbsolute
    cases hlist : n.toList with
    | nil => rfl
    | cons c s =>
      have hne : c ≠ '/' := fun h => hn (by simp [hlist,h])
      simpa using hne
  unfold join
  rw [hrelative]
  simp only [Bool.false_eq_true,if_false]
  split
  · rename_i hbase
    refine name_of_split hn (by rw [String.toList_append,List.reverse_append]) ?_
    simp only [Bool.or_eq_true,decide_eq_true_eq,beq_iff_eq] at hbase
    rcases hbase with rfl | hlast
    · exact Or.inl (by simp)
    · exact Or.inr (by rwa [List.head?_reverse])
  · exact name_of_split hn (by rw [String.toList_append,List.reverse_append]) (Or.inr (by simp))

/-- A path ends as its last name. -/
theorem extension_join (base : String) {n : String} (hn : '/' ∉ n.toList) :
    extension (join base n) = extension n := by
  have hself : name n = n := name_of_split hn (List.append_nil _).symm (Or.inl rfl)
  unfold extension
  rw [name_join base hn,hself]

end Path

namespace Settings

/-! ### What a settings file holds -/

/-- The mapping that a value stands for. What does not count as given stands for the one without entries. -/
def mappingOf? : Value → Option Entries
  | .map es => some es
  | v => if v.truthy then none else some []

/-- The mapping that a settings file holds, if it can be used: a text in JSON or, if its name ends otherwise,
in YAML. -/
def mappingAt? (yaml : Option YamlReader) (d : Disk) (path : String) : Option Entries := do
  let text ← (d.textAt path).toOption
  let v ← if ".json".toList.isSuffixOf path.toList then (Json.read text).toOption
    else yaml.bind fun read => (read text).toOption
  mappingOf? v

/-- The mapping in the settings file of a directory, if there is a file and it can be used. -/
def mappingIn? (yaml : Option YamlReader) (d : Disk) (directory : String) : Option Entries :=
  (find? d directory).bind (mappingAt? yaml d)

variable {yaml : Option YamlReader} {d : Disk} {directory path here : String} {w : World}

/-- The format of a settings file is that of its name. -/
theorem formatOf_of_find? (h : find? d directory = some path) :
    formatOf path = .ok (if ".json".toList.isSuffixOf path.toList then .json else .yaml) := by
  obtain ⟨n,hn,rfl⟩ : ∃ n ∈ fileNames, Path.join directory n = path := by
    have hmem := List.mem_of_find?_eq_some h
    simpa using hmem
  have hnames : ∀ n ∈ fileNames, '/' ∉ n.toList ∧ ".json".toList.length ≤ n.toList.length ∧
      formatOf n = .ok (if ".json".toList.isSuffixOf n.toList then .json else .yaml) := by decide +kernel
  obtain ⟨hslash,hlong,hformat⟩ := hnames n hn
  have hends : ".json".toList.isSuffixOf (Path.join directory n).toList = ".json".toList.isSuffixOf n.toList := by
    have hsuffix := Path.suffix_join directory n
    rw [Bool.eq_iff_iff,List.isSuffixOf_iff_suffix,List.isSuffixOf_iff_suffix]
    exact ⟨fun h => List.suffix_of_suffix_length_le h hsuffix hlong,fun h => h.trans hsuffix⟩
  unfold formatOf at hformat ⊢
  rw [Path.extension_join directory hslash,hends,hformat]

/-! ### Reading a settings file -/

/-- What reading a settings file gives on a tree. -/
def reading (yaml : Option YamlReader) (d : Disk) (path : String) : Except Failure Entries := do
  let format ← formatOf path
  let read ← match format with
    | .yaml => requireYaml yaml
    | .json => .ok fun _ => .ok .null
  let text ← d.textAt path
  valueOf path read format text >>= entriesOf path

theorem go_ofFile (path : String) (w : World) :
    (ofFile yaml path).go w = (reading yaml w.disk path,w) := by
  unfold ofFile reading
  cases formatOf path with
  | error f => rfl
  | ok format =>
    rw [Run.go_bind,Run.go_settle]
    cases format with
    | json =>
      simp only [Run.go_bind,Run.go_pure,Run.go_readText]
      cases w.disk.textAt path <;> rfl
    | yaml =>
      simp only [Run.go_bind,Run.go_settle,Run.go_readText]
      cases requireYaml yaml with
      | error f => rfl
      | ok read =>
        simp only
        cases w.disk.textAt path <;> rfl

theorem toOption_entriesOf (path : String) (v : Value) : (entriesOf path v).toOption = mappingOf? v := by
  unfold entriesOf mappingOf? Value.orElse
  by_cases hv : v.truthy = true
  · rw [if_pos hv]
    cases v with
    | map es => rfl
    | _ => exact (if_pos hv).symm
  · rw [if_neg hv]
    cases v with
    | map es =>
      obtain rfl : es = [] := by simpa [Value.truthy] using hv
      rfl
    | _ => exact (if_neg hv).symm

/-- What the text of a settings file spells, if it can be read. -/
theorem toOption_valueOf (path : String) (read : YamlReader) (format : Format) (text : String) :
    ((valueOf path read format text).bind (entriesOf path)).toOption =
      (match format with
        | .yaml => (read text).toOption
        | .json => (Json.read text).toOption).bind mappingOf? := by
  unfold valueOf
  cases format with
  | yaml =>
    cases read text with
    | error f => rfl
    | ok v => exact toOption_entriesOf path v
  | json =>
    cases Json.read text with
    | error f => rfl
    | ok v => exact toOption_entriesOf path v

/-- A settings file is read as the mapping that it holds. -/
theorem toOption_reading (h : find? d directory = some path) :
    (reading yaml d path).toOption = mappingAt? yaml d path := by
  unfold reading mappingAt?
  rw [formatOf_of_find? h]
  cases d.textAt path with
  | error f =>
    split
    · rfl
    · cases yaml <;> rfl
  | ok text =>
    split
    · exact toOption_valueOf path _ .json text
    · cases yaml with
      | none => rfl
      | some read => exact toOption_valueOf path read .yaml text

/-- A reader of YAML that is there fails on the settings files only with texts that are no YAML, or that name a
value there is not. -/
def IsSteady (read : YamlReader) (d : Disk) (directory : String) : Prop :=
  ∀ n ∈ fileNames, ∀ text, d.textAt (Path.join directory n) = .ok text →
    ∀ f, read text = .error f → f = .malformed ∨ f = .badValue

theorem isFileProblem_of_textAt {f : Failure} (h : d.textAt path = .error f) : f.isFileProblem = true := by
  unfold Disk.textAt at h
  split at h
  · obtain rfl := Except.error.inj h
    rfl
  · split at h
    · obtain rfl := Except.error.inj h
      rfl
    · cases h

theorem isFileProblem_of_entriesOf {v : Value} {f : Failure} (h : entriesOf path v = .error f) :
    f.isFileProblem = true := by
  unfold entriesOf at h
  split at h
  · cases h
  · obtain rfl := Except.error.inj h
    rfl

theorem isFileProblem_of_valueOf (read : YamlReader) (format : Format) {text : String} {f : Failure}
    (hread : ∀ e, read text = .error e → e = .malformed ∨ e = .badValue)
    (h : (valueOf path read format text).bind (entriesOf path) = .error f) : f.isFileProblem = true := by
  unfold valueOf at h
  cases format with
  | yaml =>
    cases hyaml : read text with
    | error e =>
      rw [hyaml] at h
      obtain rfl := Except.error.inj h
      rcases hread e hyaml with rfl | rfl <;> rfl
    | ok v =>
      rw [hyaml] at h
      exact isFileProblem_of_entriesOf h
  | json =>
    cases hjson : Json.read text with
    | error e =>
      rw [hjson] at h
      obtain rfl := Except.error.inj h
      cases e <;> rfl
    | ok v =>
      rw [hjson] at h
      exact isFileProblem_of_entriesOf h

/-- With such a reader, whatever is wrong with a settings file is a problem of the file. -/
theorem isFileProblem_of_reading {read : YamlReader} (hread : IsSteady read d directory)
    (h : find? d directory = some path) {f : Failure} (hf : reading (some read) d path = .error f) :
    f.isFileProblem = true := by
  obtain ⟨n,hn,rfl⟩ : ∃ n ∈ fileNames, Path.join directory n = path := by
    simpa using List.mem_of_find?_eq_some h
  unfold reading at hf
  rw [formatOf_of_find? h] at hf
  cases htext : d.textAt (Path.join directory n) with
  | error e =>
    have hproblem := isFileProblem_of_textAt htext
    rw [htext] at hf
    split at hf <;> exact Except.error.inj hf ▸ hproblem
  | ok text =>
    rw [htext] at hf
    split at hf
    · refine isFileProblem_of_valueOf (fun _ => .ok .null) .json (fun e he => ?_) hf
      cases he
    · exact isFileProblem_of_valueOf read .yaml (hread n hn text htext) hf

/-! ### Loading settings -/

/-- Settings once the files of a tree have been looked at: what the settings file holds is written over them,
and the file is remembered. -/
def visited (s : Settings) (yaml : Option YamlReader) (d : Disk) : Settings :=
  { s with
    values := s.values.update ((mappingIn? yaml d s.directory).getD [])
    file := (find? d s.directory).or s.file }

/-- Whether loading goes on whatever the settings file holds, or which failure is returned. -/
def outcome (yaml : Option YamlReader) (d : Disk) (directory : String) : Except Failure Unit :=
  match find? d directory with
  | none => .ok ()
  | some path =>
    match reading yaml d path with
    | .ok _ => .ok ()
    | .error f => if f.isFileProblem then .ok () else .error f

theorem outcome_eq_ok {read : YamlReader} (hread : IsSteady read d directory) :
    outcome (some read) d directory = .ok () := by
  unfold outcome
  split
  · rfl
  · rename_i path hfind
    split
    · rfl
    · rename_i f hreading
      exact if_pos (isFileProblem_of_reading hread hfind hreading)

/-- Loading looks at the files, and changes none. -/
theorem load_eq (s : Settings) (yaml : Option YamlReader) (here : String) (w : World) :
    ((s.load yaml here).run w).1 = (s.visited yaml w.disk,outcome yaml w.disk s.directory) ∧
      ((s.load yaml here).run w).2.disk = w.disk := by
  unfold visited outcome
  cases hfind : find? w.disk s.directory with
  | none =>
    have hrun : (s.load yaml here).run w = ((s,.ok ()),w) := by
      simp only [load,StateT.run_bind,StateT.run_get,pure_bind,hfind]
      rfl
    rw [hrun,mappingIn?,hfind]
    exact ⟨rfl,rfl⟩
  | some path =>
    have hmapping : mappingIn? yaml w.disk s.directory = (reading yaml w.disk path).toOption := by
      rw [mappingIn?,hfind,toOption_reading hfind]
      rfl
    rw [hmapping]
    simp only [load,StateT.run_bind,StateT.run_get,pure_bind,hfind,go_ofFile]
    cases reading yaml w.disk path with
    | error f =>
      simp only
      split <;> exact ⟨rfl,rfl⟩
    | ok es => cases es <;> exact ⟨rfl,rfl⟩

end Settings

end BlogSite
