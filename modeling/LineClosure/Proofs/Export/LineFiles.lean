import LineClosure.Proofs.Export.Requests
import LineClosure.Proofs.Export.Steps
import LineClosure.Proofs.Storage.Names

/-! The files of lines. Every line with data writes the file of its identifier, and the report comes
last, under a name that a line can have as well. A file stays as it was written if nothing else has
its name. -/

namespace LineClosure

open FileTree Keyed

/-- A text that an ending makes a name of one part. -/
def Scalar.IsFileStem (id : Id) : Prop := ∃ t : Text, id = .text t ∧ '/'.toNat ∉ t.points

/-- A text that an ending makes the name of a file. -/
def Scalar.IsStem (id : Id) : Prop := ∃ s : String, id = .text s ∧ '/' ∉ s.toList

theorem Scalar.IsStem.isFileStem {id : Id} (stem : id.IsStem) : id.IsFileStem := by
  obtain ⟨s, rfl, single⟩ := stem
  refine ⟨s, rfl, fun listed => ?_⟩
  obtain ⟨c, given, same⟩ := List.mem_map.mp listed
  exact single (Char.toNat_inj.mp same ▸ given)

namespace Job

def fileName (id : Id) : Text := FileName.normal (closureName id)

theorem isPart_closureName {id : Id} (stem : id.IsFileStem) : IsPart (closureName id) := by
  obtain ⟨t, rfl, free⟩ := stem
  have points : (closureName (.text t)).points = t.points ++ (Text.whole ".json").points :=
    Text.points_append t ".json"
  have ending : '/'.toNat ∉ (Text.whole ".json").points := by decide
  have long : ∀ short : Text, short.points.length < 5 → closureName (.text t) ≠ short := by
    rintro short few rfl
    have size : (Text.whole ".json").points.length = 5 := by decide
    rw [points, List.length_append] at few
    omega
  refine ⟨?_, long "" (by decide), long "." (by decide)⟩
  rw [points]
  exact fun given => (List.mem_append.mp given).elim free ending

theorem isPart_report : IsPart reportName := by
  have stem : Scalar.IsFileStem (.text (.whole "report")) := ⟨_, rfl, by decide⟩
  exact isPart_closureName stem

example : closureName (.text "report") = reportName := by decide

theorem eq_of_fileName {s t : String}
    (same : fileName (.text (.whole s)) = fileName (.text (.whole t))) : s = t :=
  String.append_left_inj ".json" |>.mp (Text.whole.inj same)

section
variable {r : Registry} {window : Window} {folder name : Text} {line other : Line}
  {lines : List Line} {files saved : FileTree} {content : ByteArray}

theorem SavesLine.hasFile (saves : SavesLine r window folder line files saved)
    (valid : (r.collect line window).valid = true) :
    saved.HasFile folder (closureName line.id) (r.closureFile line window) := by
  unfold SavesLine at saves
  rw [if_pos valid] at saves
  exact saves.hasFile

theorem SavesLine.keeps_other (stem : line.id.IsFileStem) (part : IsPart name)
    (apart : (r.collect line window).valid = true → FileName.normal name ≠ fileName line.id)
    (saves : SavesLine r window folder line files saved)
    (has : files.HasFile folder name content) : saved.HasFile folder name content := by
  unfold SavesLine at saves
  by_cases valid : (r.collect line window).valid = true
  · rw [if_pos valid] at saves
    exact saves.keeps_other (isPart_closureName stem) part (apart valid) has
  · rw [if_neg valid] at saves
    rwa [saves]

theorem SavesReport.keeps {request : ExportRequest} {report : ExportReport} (part : IsPart name)
    (apart : request.writeReport = true → FileName.normal name ≠ reportName)
    (saves : SavesReport request folder report files saved)
    (has : files.HasFile folder name content) : saved.HasFile folder name content := by
  unfold SavesReport at saves
  by_cases writes : request.writeReport = true
  · rw [if_pos writes] at saves
    exact saves.keeps_other isPart_report part (apart writes) has
  · rw [if_neg writes] at saves
    rwa [saves]

/-! ## Lines that share no file -/

/-- No other line with data writes the file of this one. -/
def Alone (r : Registry) (window : Window) (lines : List Line) (line : Line) : Prop :=
  ∀ other ∈ lines, (r.collect other window).valid = true →
    fileName other.id = fileName line.id → other = line

theorem Alone.later (alone : Alone r window (other :: lines) line) : Alone r window lines line :=
  fun next given => alone next (List.mem_cons_of_mem other given)

/-- Registered lines with one identifier are one line, and strings that differ name different
files. -/
theorem alone_of_strings (registered : ∀ line ∈ lines, line ∈ r.lines.members)
    (strings : ∀ line ∈ lines, ∃ s : String, line.id = .text (.whole s)) (given : line ∈ lines) :
    Alone r window lines line := by
  intro other there _ same
  obtain ⟨s, named⟩ := strings line given
  obtain ⟨t, otherNamed⟩ := strings other there
  rw [named, otherNamed] at same
  have ids : other.id = line.id := by rw [named, otherNamed, eq_of_fileName same]
  exact Roster.eq_of_identity (registered other there) (registered line given)
    (congrArg canonical ids)

theorem SavesLines.keeps_alone (stems : ∀ line ∈ lines, line.id.IsFileStem)
    (stem : line.id.IsFileStem) (alone : Alone r window lines line)
    (saves : SavesLines r window folder lines files saved)
    (has : files.HasFile folder (closureName line.id) (r.closureFile line window)) :
    saved.HasFile folder (closureName line.id) (r.closureFile line window) := by
  induction saves with
  | nil => exact has
  | @cons first rest files between saved step _ ih =>
    obtain ⟨here, behind⟩ := List.forall_mem_cons.mp stems
    apply ih behind alone.later
    by_cases shared : (r.collect first window).valid = true ∧ fileName first.id = fileName line.id
    · obtain rfl := alone first List.mem_cons_self shared.1 shared.2
      exact step.hasFile shared.1
    · exact step.keeps_other here (isPart_closureName stem)
        (fun valid same => shared ⟨valid, same.symm⟩) has

theorem SavesLines.hasFile_alone (stems : ∀ line ∈ lines, line.id.IsFileStem)
    (saves : SavesLines r window folder lines files saved) (given : line ∈ lines)
    (valid : (r.collect line window).valid = true) (alone : Alone r window lines line) :
    saved.HasFile folder (closureName line.id) (r.closureFile line window) := by
  induction saves with
  | nil => cases given
  | cons step later ih =>
    obtain ⟨here, behind⟩ := List.forall_mem_cons.mp stems
    rcases List.mem_cons.mp given with rfl | next
    · exact later.keeps_alone behind here alone.later (step.hasFile valid)
    · exact ih behind next alone.later

end

end Job
end LineClosure
