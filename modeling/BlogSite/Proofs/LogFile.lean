import BlogSite.Command
import BlogSite.Proofs.DiskLookup
import BlogSite.Proofs.RunSteps

/-!
The log file of a run. A report changes no more of the file tree than the bytes of the log file, and
the log file is named so that it is none of the files that a run reads.
-/

namespace BlogSite

namespace World

/-- The log file, if there is one, is not the file of a path. -/
def LogApart (w : World) (p : String) : Prop :=
  ∀ f ∈ w.logFile, ∀ l, w.disk.locate f.path = .ok l → w.disk.locate p ≠ .ok l

/-- A report leaves the tree alone or writes other bytes into the log file. -/
theorem disk_report (w : World) (r : Log.Record) :
    (w.report r).disk = w.disk ∨ ∃ f ∈ w.logFile, ∃ l old new,
      w.disk.locate f.path = .ok l ∧ w.disk.entry? l = some (.file old) ∧
        (w.report r).disk = w.disk.put l (.file new) := by
  cases hf : w.logFile with
  | none => exact Or.inl (by simp [report,hf])
  | some f =>
    cases hl : w.disk.locate f.path with
    | error e => exact Or.inl (by simp [report,hf,appendLine,Disk.read,hl,bind,Except.bind])
    | ok l =>
      cases he : w.disk.entry? l with
      | none => exact Or.inl (by simp [report,hf,appendLine,Disk.read,hl,he,bind,Except.bind])
      | some e =>
        cases e with
        | directory =>
          exact Or.inl (by simp [report,hf,appendLine,Disk.read,hl,he,bind,Except.bind])
        | file old =>
          refine Or.inr ⟨f,rfl,l,old,old ++ (f.stamp ++ " - " ++ r.line ++ "\n").toUTF8,hl,he,?_⟩
          simp only [report,hf,appendLine,Disk.read,Disk.write,hl,he,bind,Except.bind]
          rfl

theorem sameShape_report (w : World) (r : Log.Record) : (w.report r).disk.SameShape w.disk := by
  rcases w.disk_report r with h | ⟨f,-,l,old,new,-,he,h⟩
  · rw [h]
    exact fun _ => rfl
  · rw [h]
    exact Disk.sameShape_put_file he new

@[simp] theorem locate_report (w : World) (r : Log.Record) (p : String) :
    (w.report r).disk.locate p = w.disk.locate p :=
  Disk.locate_eq_of_sameShape (w.sameShape_report r) p

/-- A report changes no file but the log file. -/
theorem read_report {w : World} {p : String} (h : w.LogApart p) (r : Log.Record) :
    (w.report r).disk.read p = w.disk.read p := by
  refine Disk.read_congr (w.locate_report r p) ?_
  intro k hk
  rw [locate_report] at hk
  rcases w.disk_report r with hd | ⟨f,hf,l,old,new,hl,he,hd⟩
  · rw [hd]
  · have hkl : k ≠ l := by
      rintro rfl
      exact h f hf k hl hk
    have hne : l ≠ [] := Disk.ne_nil_of_entry_ne he (by simp)
    rw [hd,Disk.entry?_put hne,if_neg hkl]

/-- The log file of a world, if there is one, is named as log files are. -/
def LogNamed (w : World) : Prop := ∀ f ∈ w.logFile, ".log".toList <:+ f.path.toList

/-- A log file that is named so is no file with another ending. -/
theorem LogNamed.logApart {w : World} (h : w.LogNamed) {p : String} {e : List Char}
    (he : e <:+ p.toList) (hslash : '/' ∉ e) (hlen : 2 < e.length)
    (hother : ∀ s : List Char, e <:+ s → ¬ ".log".toList <:+ s) : w.LogApart p := by
  intro f hf l hl hp
  obtain ⟨k,n,rfl,hn⟩ := Disk.exists_of_locate hl (h f hf) (by decide) (by decide)
  obtain ⟨k',n',heq,hn'⟩ := Disk.exists_of_locate hp he hslash hlen
  obtain ⟨-,hnn⟩ := List.append_inj' heq rfl
  obtain rfl : n = n' := by simpa using hnn
  exact hother _ hn' hn

end World

namespace Path

/-- The last of the names that are left is the last name, unless that is a step back or none. -/
theorem walked_concat (absolute : Bool) (ns : List String) {n : String}
    (hn : n ≠ "" ∧ n ≠ "." ∧ n ≠ "..") : walked absolute (ns ++ [n]) = walked absolute ns ++ [n] := by
  simp [walked,step,hn]

theorem suffix_ofNames_concat (ns : List String) (n : String) :
    n.toList <:+ (ofNames (ns ++ [n])).toList := by
  unfold ofNames
  by_cases hns : ns = []
  · simp [hns]
  · rw [String.intercalate_append_of_ne_nil hns (by simp),String.intercalate_singleton,
      String.toList_append]
    exact List.suffix_append _ _

/-- A path keeps its ending when it is shortened. -/
theorem suffix_normalise {p : String} {e : List Char} (he : e <:+ p.toList) (hslash : '/' ∉ e)
    (hlen : 2 < e.length) : e <:+ (normalise p).toList := by
  obtain ⟨before,n,hnames,hn,hproper⟩ := exists_names_eq he hslash hlen
  have hbody : ∀ slashes : String,
      e <:+ (slashes ++ ofNames (walked (0 < leading p) (names p))).toList := by
    intro slashes
    rw [hnames,walked_concat _ _ hproper,String.toList_append]
    exact (hn.trans (suffix_ofNames_concat _ n)).trans (List.suffix_append _ _)
  unfold normalise
  simp only
  split
  · rename_i hempty
    have h := hbody (String.ofList (List.replicate (leading p) '/'))
    rw [hempty] at h
    simp [List.suffix_nil.mp h] at hlen
  · exact hbody _

end Path

theorem Session.suffix_logName (m : Calendar.Moment) : ".log".toList <:+ (logName m).toList := by
  unfold logName
  simp only [String.toList_ofList]
  exact List.suffix_append _ _

/-- The log file that a session opens is named as log files are. -/
theorem Session.logNamed_of_openLog {s : Session} {directory : String} {w v : World}
    (h : (s.openLog directory).go w = (.ok (),v)) : v.LogNamed := by
  have hpath := Path.suffix_normalise
    ((suffix_logName s.now).trans (Path.suffix_join (Path.join s.directory directory) (logName s.now)))
    (by decide) (by decide)
  simp only [openLog] at h
  generalize Path.normalise _ = path at h hpath
  generalize logStamp s.now = stamp at h
  obtain ⟨-,w₁,-,h⟩ := Run.exists_of_go_bind h
  obtain ⟨isThere,w₂,-,h⟩ := Run.exists_of_go_bind h
  have hset : ∃ u : World, v = { u with logFile := some ⟨path,stamp⟩ } := by
    cases isThere with
    | false =>
      rw [if_pos (by rfl)] at h
      obtain ⟨-,u,-,h⟩ := Run.exists_of_go_bind h
      exact ⟨u,(congrArg Prod.snd h).symm⟩
    | true =>
      rw [if_neg (by decide)] at h
      exact ⟨w₂,(congrArg Prod.snd h).symm⟩
  obtain ⟨u,rfl⟩ := hset
  intro f hf
  obtain rfl := Option.some.inj hf
  exact hpath

end BlogSite
