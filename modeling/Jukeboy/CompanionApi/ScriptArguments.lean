import Jukeboy.Base.Words
import Jukeboy.CompanionApi.ServiceHandlers
import Jukeboy.Services.ArgvLimits
import Jukeboy.Services.ScriptConfinement

/-! # The arguments of a script, from the frame to its entry function

The splitter of the companion API ends a word only on its way to the next one. It never
gets past its last word, which therefore takes along all that follows it. -/
namespace Jukeboy.CompanionApi.ServiceHandlers

open Jukeboy.Base Jukeboy.Base.Words Jukeboy.CompanionApi.Tlv

/-! ## The splitter -/

/-- A word that is followed by nothing. -/
theorem cString_append {word buffer : Bytes} (hzero : 0 ∉ word) (h : cString buffer = []) :
    cString (word ++ buffer) = word := by
  rw [cString, List.takeWhile_append_of_pos]
  · change word ++ cString buffer = word
    rw [h, List.append_nil]
  · intro c hc
    have hne : c ≠ 0 := fun heq => hzero (heq ▸ hc)
    simpa using hne

theorem cString_of_notMem {s : Bytes} (hzero : 0 ∉ s) : cString s = s := by
  have h := cString_append hzero (show cString [] = [] from rfl)
  rwa [List.append_nil] at h

/-- What the loop leaves of the rest of the string. -/
structure Split (places : Nat) (rest buffer : Bytes) (starts : List Nat) : Prop where
  length : buffer.length = rest.length
  words : (starts.map fun start => cString (buffer.drop start)) = splitRest isArgSeparator places rest
  /-- A word before it is ended when there is a place for a next one. -/
  ended : 0 < places → (∀ c ∈ rest.head?, isArgSeparator c = true) → cString buffer = []
  kept : places = 0 → buffer = rest

theorem split_done {places : Nat} {rest : Bytes} (h : rest = [] ∨ places = 0) :
    Split places rest rest [] where
  length := rfl
  words := by
    cases places with
    | zero => rfl
    | succ places =>
      obtain rfl | h := h
      · rfl
      · cases h
  ended hpos _ := by
    obtain rfl | rfl := h
    · rfl
    · cases hpos
  kept _ := rfl

/-- A word, and what the loop does behind it. -/
theorem Split.word {places : Nat} {skipped word tail buffer : Bytes} {starts : List Nat}
    (hskipped : ∀ c ∈ skipped, isArgSeparator c = true) (hne : word ≠ [])
    (hword : ∀ c ∈ word, isArgSeparator c = false)
    (htail : ∀ c ∈ tail.head?, isArgSeparator c = true) (hzero : 0 ∉ word ++ tail)
    (h : Split places tail buffer starts) :
    Split (places + 1) (skipped ++ (word ++ tail))
      (List.replicate skipped.length 0 ++ (word ++ buffer))
      (skipped.length :: starts.map (skipped.length + word.length + ·)) where
  length := by
    simp only [List.length_append, List.length_replicate, h.length]
  words := by
    have hskip : (List.replicate skipped.length (0 : UInt8)).length = skipped.length :=
      List.length_replicate
    have hrest : ((starts.map (skipped.length + word.length + ·)).map fun start =>
        cString ((List.replicate skipped.length 0 ++ (word ++ buffer)).drop start)) =
        starts.map fun start => cString (buffer.drop start) := by
      rw [List.map_map]
      refine List.map_congr_left fun start _ => ?_
      rw [Function.comp_apply, Nat.add_assoc, ← List.drop_drop, List.drop_left' hskip,
        ← List.drop_drop, List.drop_left]
    rw [List.map_cons, hrest, h.words, List.drop_left' hskip,
      splitRest_word hskipped hne hword htail]
    have hfree : 0 ∉ word := fun hmem => hzero (List.mem_append_left _ hmem)
    cases places with
    | zero => rw [if_pos rfl, h.kept rfl, cString_of_notMem hzero, splitRest]
    | succ places =>
      rw [if_neg places.succ_ne_zero, cString_append hfree (h.ended places.succ_pos htail)]
  ended _ hhead := by
    cases skipped with
    | nil =>
      cases word with
      | nil => exact absurd rfl hne
      | cons c word =>
        have hsep := hhead c rfl
        rw [hword c List.mem_cons_self] at hsep
        cases hsep
    | cons c skipped => rfl
  kept h := by cases h

/-- Only separators are left. -/
theorem split_separators {places : Nat} {rest : Bytes} (hne : rest ≠ [])
    (hrest : rest.dropWhile isArgSeparator = []) :
    Split (places + 1) rest (List.replicate rest.length 0) [] where
  length := List.length_replicate
  words := by
    rw [splitRest, hrest]
    rfl
  ended _ _ := by
    cases rest with
    | nil => exact absurd rfl hne
    | cons c rest => rfl
  kept h := by cases h

/-- **The loop** cuts the rest of the string. -/
theorem splitArgsFrom_split {fuel : Nat} (before rest : Bytes) (argv : List Nat)
    (hfuel : rest.length < fuel) (hzero : 0 ∉ rest) (hargv : argv.length ≤ scriptMaxArgv) :
    ∃ buffer starts, splitArgsFrom fuel before rest argv =
        (before ++ buffer, argv ++ starts.map (before.length + ·)) ∧
      Split (scriptMaxArgv - argv.length) rest buffer starts := by
  induction fuel generalizing before rest argv with
  | zero => cases hfuel
  | succ fuel ih =>
    rw [splitArgsFrom]
    by_cases hdone : rest = [] ∨ argv.length ≥ scriptMaxArgv
    · rw [if_pos hdone]
      exact ⟨rest, [], by rw [List.map_nil, List.append_nil],
        split_done (hdone.imp_right Nat.sub_eq_zero_of_le)⟩
    · rw [if_neg hdone]
      obtain ⟨hne, hplace⟩ := not_or.mp hdone
      have hplaces : scriptMaxArgv - argv.length = scriptMaxArgv - (argv.length + 1) + 1 := by
        omega
      have hsplit : rest.takeWhile isArgSeparator ++ rest.dropWhile isArgSeparator = rest :=
        List.takeWhile_append_dropWhile
      have hskipped : ∀ c ∈ rest.takeWhile isArgSeparator, isArgSeparator c = true :=
        fun c hc => List.mem_takeWhile_imp hc
      have hhead := head_dropWhile isArgSeparator rest
      simp only [drop_length_takeWhile]
      generalize hskip : rest.takeWhile isArgSeparator = skipped at *
      generalize htext : rest.dropWhile isArgSeparator = text at *
      by_cases htextNil : text = []
      · subst htextNil
        rw [List.append_nil] at hsplit
        rw [if_pos rfl, hplaces, hsplit]
        exact ⟨_, [], by rw [List.map_nil, List.append_nil], split_separators hne htext⟩
      · rw [if_neg htextNil]
        obtain ⟨hword, hfree⟩ := takeWhile_word hhead htextNil
        have htail : ∀ c ∈ (text.dropWhile fun c => !isArgSeparator c).head?,
            isArgSeparator c = true := by
          intro c hc
          simpa using head_dropWhile (fun c => !isArgSeparator c) text c hc
        have hcut : text.takeWhile (fun c => !isArgSeparator c) ++
            text.dropWhile (fun c => !isArgSeparator c) = text := List.takeWhile_append_dropWhile
        generalize text.takeWhile (fun c => !isArgSeparator c) = word at *
        generalize text.dropWhile (fun c => !isArgSeparator c) = tail at *
        subst hcut hsplit
        rw [List.mem_append] at hzero
        have hposition : (before ++ List.replicate skipped.length 0).length =
            before.length + skipped.length := by
          rw [List.length_append, List.length_replicate]
        have hargv' : (argv ++ [before.length + skipped.length]).length = argv.length + 1 :=
          List.length_append
        have hshort : tail.length < fuel := by
          have := List.length_pos_iff.mpr hword
          simp only [List.length_append] at hfuel
          omega
        obtain ⟨buffer, starts, hloop, hrest⟩ :=
          ih (before ++ List.replicate skipped.length 0 ++ word) tail
            (argv ++ [before.length + skipped.length]) hshort
            (fun h => hzero (.inr (List.mem_append_right _ h))) (by omega)
        rw [hargv'] at hrest
        refine ⟨_, _, ?_, hplaces ▸ hrest.word hskipped hword hfree htail fun h => hzero (.inr h)⟩
        rw [hposition, hloop, List.length_append, hposition, List.map_cons, List.map_map,
          List.append_assoc, List.append_assoc, List.append_assoc, List.singleton_append]
        refine congrArg (Prod.mk _) (congrArg (fun l => argv ++ _ :: l) ?_)
        refine List.map_congr_left fun start _ => ?_
        rw [Function.comp_apply]
        omega

/-- **The splitter** of the companion API. -/
theorem splitArgs_eq {args : Bytes} (hzero : 0 ∉ args) :
    splitArgs args = splitRest isArgSeparator scriptMaxArgv args := by
  obtain ⟨buffer, starts, hloop, hsplit⟩ :=
    splitArgsFrom_split [] args [] (Nat.lt_succ_self _) hzero (Nat.zero_le _)
  simp only [splitArgs, hloop, List.nil_append, List.length_nil, Nat.zero_add, List.map_id']
  exact hsplit.words

/-! ## End to end -/

section

open Jukeboy.Base.Runs Jukeboy.Base.StringVector Jukeboy.Services.ScriptNames
open Jukeboy.Services.ScriptRuns Jukeboy.Services.ScriptArgv

variable {payload name args path : List UInt8} {regular : List UInt8 → Bool}
  {allocates : Nat → Bool} {malloc : Nat → Allocation}

/-- The arguments of a frame reach the script as they were typed: after its path the first
words, in a block that was allocated for them. What is over the limits reaches none. -/
structure AsTyped (sv : Services) (allocates : Nat → Bool) (malloc : Nat → Allocation)
    (payload name args path : List UInt8) : Prop where
  arrive : ∃ argv call size, (handleScriptRun sv payload).calls = [.scriptStart name argv] ∧
    passArguments allocates malloc path argv.length (some fun i => argv[i]?) = .ok call ∧
    (malloc size).offset = call.argv ∧ WellPlaced call.memory call.argv size call.argc ∧
    vector call.memory call.argv call.argc =
      path :: (words isArgSeparator args).take scriptMaxArgv
  overLimit : ∀ programPath argc argv, OverLimit programPath argc argv →
    ∀ (ω : Type) calls c (as : List (Action ω)) t,
      Along (step calls) (Copies (copyErr (duplicateArgv allocates programPath argc argv)) c)
        initial as → run (step calls) initial as = some t →
      TurnedAway t c ∧ LeavesFree calls t c

theorem tlvString_cString {type : TlvType} {bufferLen : Nat} (hlen : 0 < bufferLen)
    (h : tlvString payload type bufferLen = some args) : 0 ∉ args ∧ args.length < bufferLen := by
  obtain ⟨value, -, rfl⟩ := Option.map_eq_some_iff.mp h
  constructor
  · intro hmem
    simpa using List.mem_takeWhile_imp hmem
  · have hword := (List.takeWhile_sublist (· != 0) (l := value.take (bufferLen - 1))).length_le
    rw [List.length_take] at hword
    rw [cString]
    omega

/-- What does reach the script. -/
theorem arguments_arrive (sv : Services)
    (hname : tlvString payload .scriptName scriptMaxPathLen = some name)
    (hargs : tlvString payload .scriptArgs 256 = some args)
    (hpath : resolvePath regular name maxPathLen = .ok path)
    (hheap : ∀ size ≤ blockLimit, allocates size = true)
    (hguest : ∀ size ≤ blockLimit, Gives malloc size) :
    (handleScriptRun sv payload).calls = [.scriptStart name (splitArgs args)] ∧
      ∃ call size, passArguments allocates malloc path (splitArgs args).length
          (some fun i => (splitArgs args)[i]?) = .ok call ∧
        (malloc size).offset = call.argv ∧ WellPlaced call.memory call.argv size call.argc ∧
        vector call.memory call.argv call.argc =
          path :: splitRest isArgSeparator scriptMaxArgv args := by
  obtain ⟨hzero, hlen⟩ := tlvString_cString (by decide) hargs
  obtain ⟨hne, hpathZero, hpathLen⟩ := resolvePath_cString hpath
  have hcalls : (handleScriptRun sv payload).calls = [.scriptStart name (splitArgs args)] := by
    cases name with
    | nil => cases hpath
    | cons c name =>
      simp only [handleScriptRun, hname, hargs, Answer.ofCall]
      split
      · rfl
      · rfl
  refine ⟨hcalls, ?_⟩
  rw [splitArgs_eq hzero]
  refine passArguments_ok hne ⟨hpathZero, hpathLen⟩ ?_ ?_ hheap hguest
  · intro word hword
    have hsub := sublist_of_mem_splitRest hword
    exact ⟨fun hmem => hzero (hsub.subset hmem), Nat.lt_of_le_of_lt hsub.length_le hlen⟩
  · exact Nat.le_trans (length_splitRest_le _ _) (by decide)

theorem asTyped_iff (sv : Services)
    (hname : tlvString payload .scriptName scriptMaxPathLen = some name)
    (hargs : tlvString payload .scriptArgs 256 = some args)
    (hpath : resolvePath regular name maxPathLen = .ok path)
    (hheap : ∀ size ≤ blockLimit, allocates size = true)
    (hguest : ∀ size ≤ blockLimit, Gives malloc size) :
    AsTyped sv allocates malloc payload name args path ↔
      splitRest isArgSeparator scriptMaxArgv args =
        (words isArgSeparator args).take scriptMaxArgv := by
  obtain ⟨hcalls, call, size, hpass, hoffset, hplaced, hvector⟩ :=
    arguments_arrive sv hname hargs hpath hheap hguest
  constructor
  · rintro ⟨⟨argv, other, otherSize, hotherCalls, hotherPass, -, -, hother⟩, -⟩
    rw [hcalls] at hotherCalls
    cases hotherCalls
    rw [hpass] at hotherPass
    cases hotherPass
    rw [hvector] at hother
    exact (List.cons.inj hother).2
  · intro hwords
    rw [hwords] at hvector
    exact ⟨⟨_, call, size, hcalls, hpass, hoffset, hplaced, hvector⟩,
      fun _ _ _ hover ω calls c _ _ hcopies hrun =>
        overLimit_turnedAway hover allocates calls c hcopies hrun⟩

/-- **Script arguments arrive as typed** exactly when nothing follows the eighth word. -/
theorem script_arguments_iff (sv : Services)
    (hname : tlvString payload .scriptName scriptMaxPathLen = some name)
    (hargs : tlvString payload .scriptArgs 256 = some args)
    (hpath : resolvePath regular name maxPathLen = .ok path)
    (hheap : ∀ size ≤ blockLimit, allocates size = true)
    (hguest : ∀ size ≤ blockLimit, Gives malloc size) :
    AsTyped sv allocates malloc payload name args path ↔
      Fits isArgSeparator scriptMaxArgv args :=
  (asTyped_iff sv hname hargs hpath hheap hguest).trans (splitRest_eq_iff (by decide))

/-! ## Two command lines -/

/-- A guest whose heap starts at 1024. -/
def guestHeap (_ : Nat) : Allocation := ⟨1024, true, List.replicate 16384 0⟩

theorem guestHeap_gives (size : Nat) (h : size ≤ blockLimit) : Gives guestHeap size where
  offset := by
    intro h
    cases h
  native := rfl
  inside := by
    simp only [blockLimit, maxArgc, maxArgStorageBytes, maxArgLen] at h
    simp only [guestHeap, List.length_replicate]
    omega
  bound := by
    simp only [guestHeap, List.length_replicate]
    omega

/-- A request to run `ls` with these arguments. -/
def runRequest (args : String) : List UInt8 :=
  TlvEntry.encode ⟨.scriptName, Tlv.ascii "ls"⟩ ++ TlvEntry.encode ⟨.scriptArgs, Tlv.ascii args⟩

theorem ls_resolved :
    resolvePath (fun _ => true) (Tlv.ascii "ls") maxPathLen = .ok (Tlv.ascii "/lfs/scripts/ls/ls") := by
  decide +kernel

theorem script_arguments_ls : AsTyped default (fun _ => true) guestHeap (runRequest " -a /lfs ")
    (Tlv.ascii "ls") (Tlv.ascii " -a /lfs ") (Tlv.ascii "/lfs/scripts/ls/ls") :=
  (script_arguments_iff default (by decide +kernel) (by decide +kernel) ls_resolved
    (fun _ _ => rfl) guestHeap_gives).mpr (by decide +kernel)

/-- The ninth word arrives as a part of the eighth. -/
theorem ninth_word_in_eighth :
    tlvString (runRequest "a b c d e f g h i") .scriptArgs 256 =
      some (Tlv.ascii "a b c d e f g h i") ∧
    ¬ AsTyped default (fun _ => true) guestHeap (runRequest "a b c d e f g h i") (Tlv.ascii "ls")
      (Tlv.ascii "a b c d e f g h i") (Tlv.ascii "/lfs/scripts/ls/ls") := by
  have hargs : tlvString (runRequest "a b c d e f g h i") .scriptArgs 256 =
      some (Tlv.ascii "a b c d e f g h i") := by decide +kernel
  refine ⟨hargs, fun h => ?_⟩
  have hwords := (asTyped_iff default (by decide +kernel) hargs ls_resolved (fun _ _ => rfl)
    guestHeap_gives).mp h
  have hfits : ¬ Fits isArgSeparator scriptMaxArgv (Tlv.ascii "a b c d e f g h i") := by
    decide +kernel
  exact hfits ((splitRest_eq_iff (by decide)).mp hwords)

end

end Jukeboy.CompanionApi.ServiceHandlers
