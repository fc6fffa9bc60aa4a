import MetricRates.Disk.Path
import MetricRates.Proofs.Text.Cut

/-!
# Names at the ends of paths

The last segment of a path is the name of the file that it leads to.  A path that is
joined from a directory and a name without slashes ends in that name, whatever the
directory is, and what comes before is the way to the directory.
-/

namespace MetricRates.Disk

open Text

/-! ## Segments -/

theorem segments_of_no_slash {name : String} (noSlash : '/' ∉ name.toList) :
    segments name = [name] := by
  simp [segments, cutAt_of_not_mem noSlash]

/-- A slash stands between the segments before it and those after it. -/
theorem segments_append_slash (before after : String) :
    segments (before ++ "/" ++ after) = segments before ++ segments after := by
  have chars : (before ++ "/" ++ after).toList = before.toList ++ '/' :: after.toList := by simp
  rw [segments, segments, segments, chars, cutAt_eq_splitOn, cutAt_eq_splitOn, cutAt_eq_splitOn,
    List.splitOn_append_cons_self, List.map_append]

theorem properSegments_append_slash (before after : String) :
    properSegments (before ++ "/" ++ after) = properSegments before ++ properSegments after := by
  rw [properSegments, segments_append_slash, List.filter_append]
  rfl

/-- A slash at the end leads nowhere. -/
theorem properSegments_append_slash_end (before : String) :
    properSegments (before ++ "/") = properSegments before := by
  have ends := properSegments_append_slash before ""
  rwa [String.append_empty, show properSegments "" = [] by decide, List.append_nil] at ends

theorem properSegments_of_no_slash {name : String} (noSlash : '/' ∉ name.toList)
    (leads : staysPut name = false) : properSegments name = [name] := by
  rw [properSegments, segments_of_no_slash noSlash]
  simp [leads]

/-! ## The last segment -/

/-- The last segment of a path. -/
def lastSegment? (path : String) : Option String :=
  (segments path).getLast?

theorem lastSegment?_of_no_slash {name : String} (noSlash : '/' ∉ name.toList) :
    lastSegment? name = some name := by
  rw [lastSegment?, segments_of_no_slash noSlash]
  rfl

theorem lastSegment?_append_slash {name : String} (noSlash : '/' ∉ name.toList)
    (directory : String) : lastSegment? (directory ++ "/" ++ name) = some name := by
  rw [lastSegment?, segments_append_slash, segments_of_no_slash noSlash]
  exact List.getLast?_concat

/-! ## Joined paths -/

/-- A directory that ends with a slash is something in front of one. -/
theorem exists_eq_append_slash {directory : String} (ends : directory.endsWith "/") :
    ∃ before, directory = before ++ "/" := by
  have found : (directory.toSlice.skipSuffix? "/").isSome := by
    rw [String.Slice.isSome_skipSuffix?]
    exact ends
  obtain ⟨position, found⟩ := Option.isSome_iff_exists.mp found
  have slash : (directory.toSlice.sliceFrom position).copy = "/" :=
    String.Slice.Pattern.Model.ForwardStringSearcher.isLongestRevMatch_iff.mp
      (String.Slice.Pattern.Model.skipSuffix?_eq_some_iff.mp found)
  have parts := position.splits.eq_append
  rw [slash, String.copy_toSlice] at parts
  exact ⟨_, parts⟩

/-- The path of a file ends in its name. -/
theorem lastSegment?_join {file : String} (noSlash : '/' ∉ file.toList) (directory : String) :
    lastSegment? (join directory file) = some file := by
  unfold join
  split
  · exact lastSegment?_of_no_slash noSlash
  · split
    · rename_i ends
      obtain ⟨before, rfl⟩ := exists_eq_append_slash ends
      exact lastSegment?_append_slash noSlash before
    · exact lastSegment?_append_slash noSlash directory

theorem not_isAbsolute_of_no_slash {name : String} (noSlash : '/' ∉ name.toList) :
    isAbsolute name = false := by
  rw [isAbsolute, String.startsWith_string_eq_false_iff]
  intro starts
  exact noSlash (starts.subset (List.mem_singleton.mpr rfl))

/-- A file leads from its directory to itself. -/
theorem properSegments_join {file : String} (noSlash : '/' ∉ file.toList)
    (leads : staysPut file = false) (directory : String) :
    properSegments (join directory file) = properSegments directory ++ [file] := by
  have own : properSegments file = [file] := properSegments_of_no_slash noSlash leads
  rw [join, not_isAbsolute_of_no_slash noSlash, Bool.or_false]
  split
  · rename_i empty
    rw [String.isEmpty_iff.mp empty, own]
    rfl
  · split
    · rename_i ends
      obtain ⟨before, rfl⟩ := exists_eq_append_slash ends
      rw [properSegments_append_slash, properSegments_append_slash_end, own]
    · rw [properSegments_append_slash, own]

/-- Files of different names have different paths. -/
theorem join_inj {first second : String} (firstNoSlash : '/' ∉ first.toList)
    (secondNoSlash : '/' ∉ second.toList) {directory : String} :
    join directory first = join directory second ↔ first = second := by
  refine ⟨fun same => ?_, congrArg _⟩
  have ends := congrArg lastSegment? same
  rw [lastSegment?_join firstNoSlash, lastSegment?_join secondNoSlash] at ends
  exact Option.some.inj ends

end MetricRates.Disk
