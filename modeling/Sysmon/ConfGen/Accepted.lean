import Sysmon.ConfGen.Validate

/-!
# An accepted delivery

What a `confgen_apply` that went through leaves on disk, and what the reload that follows it finds
there: the files, the link, and the name of the entry file as `save_mainname` has left it.
-/

namespace Sysmon.ConfGen

variable {seedName : CStr} {d : Daemon} {g : UInt64} {files : List File} {env : ApplyEnv}

/-- `save_mainname` gets its file in place. -/
def MainEnv.saved (env : MainEnv) : Bool := env.open_ && env.close.isNone && env.rename

/-- The entry name that the reload after a delivery reads: what `save_mainname` has written, up to its
first newline, or what was there before. -/
def entryRead (seedName : CStr) (d : Daemon) (env : ApplyEnv) : CStr :=
  readMainname seedName
    (if env.main.saved then { d.disk with main := some (entryOf seedName d ++ ['\n']) } else d.disk)
    (entryOf seedName d)

theorem main_exec {s : Store} {ops : List FsOp} (h : ∀ op ∈ ops, op ≠ .renameMainNew) :
    (s.exec ops).main = s.main := by
  induction ops generalizing s with
  | nil => rfl
  | cons op ops ih =>
      rw [Store.exec_cons, ih fun o ho => h o (List.mem_cons_of_mem op ho)]
      have hop := h op List.mem_cons_self
      cases op with
      | renameMainNew => exact absurd rfl hop
      | _ => rfl

theorem ne_renameMainNew_of_gen {op : FsOp} (h : op.gen = some g) : op ≠ .renameMainNew := by
  rintro rfl
  exact absurd h (by simp [FsOp.gen])

theorem ne_renameMainNew_pointLinkOps {link : LinkEnv} {l : Link} {op : FsOp}
    (h : op ∈ pointLinkOps link l g) : op ≠ .renameMainNew := by
  rintro rfl
  simp only [pointLinkOps] at h
  repeat' split at h
  all_goals simp at h

theorem mainNew_appended (s : Store) (text : CStr) :
    (s.exec (text.map FsOp.appendMainNew)).mainNew = s.mainNew.map (· ++ text) := by
  induction text generalizing s with
  | nil => simp
  | cons byte text ih =>
      rw [List.map_cons, Store.exec_cons, ih]
      cases hnew : s.mainNew <;> simp [Store.step, hnew]

theorem main_saveMainnameOps (s : Store) (env : MainEnv) (mainname : CStr) :
    (s.exec (saveMainnameOps env mainname)).main =
      if env.saved then some (mainname ++ ['\n']) else s.main := by
  obtain ⟨opened, close, rename⟩ := env
  have htext : ∀ op ∈ (mainname ++ ['\n']).map FsOp.appendMainNew, op ≠ .renameMainNew := by
    intro op hop
    obtain ⟨byte, -, rfl⟩ := List.mem_map.mp hop
    simp
  cases opened with
  | false => rfl
  | true =>
      cases close with
      | some k =>
          have hops : saveMainnameOps ⟨true, some k, rename⟩ mainname =
              .createMainNew :: ((mainname ++ ['\n']).map FsOp.appendMainNew).take k := rfl
          rw [hops, main_exec fun op hop => ?_]
          · simp [MainEnv.saved]
          · obtain rfl | hmem := List.mem_cons.mp hop
            · simp
            · exact htext op (List.mem_of_mem_take hmem)
      | none =>
          cases rename with
          | false =>
              have hops : saveMainnameOps ⟨true, none, false⟩ mainname =
                  .createMainNew :: (mainname ++ ['\n']).map FsOp.appendMainNew ++ [.unlinkMainNew] := rfl
              rw [hops, main_exec fun op hop => ?_]
              · simp [MainEnv.saved]
              · simp only [List.cons_append, List.mem_cons, List.mem_append, List.not_mem_nil,
                  or_false] at hop
                obtain rfl | hmem | rfl := hop
                · simp
                · exact htext op hmem
                · simp
          | true =>
              have hops : saveMainnameOps ⟨true, none, true⟩ mainname =
                  .createMainNew :: (mainname ++ ['\n']).map FsOp.appendMainNew ++ [.renameMainNew] := rfl
              have hnew := mainNew_appended (s.step .createMainNew) (mainname ++ ['\n'])
              rw [hops, List.cons_append, Store.exec_cons, Store.exec_append]
              exact hnew

/-- A delivery that went through has its files in place, and `current` names them. -/
theorem done_accepted (h : (apply seedName d g files env).error = none) :
    ((apply seedName d g files env).done d).mainname = entryOf seedName d ∧
      ((apply seedName d g files env).done d).disk.link .current = some g ∧
      ((apply seedName d g files env).done d).disk.gens g = some (dirOf files) ∧
      ((apply seedName d g files env).done d).disk.main =
        if env.main.saved then some (entryOf seedName d ++ ['\n']) else d.disk.main := by
  obtain ⟨hr, hs, hok⟩ := apply_ok h
  obtain ⟨hlink, hgens⟩ := exec_swappedOps seedName d g files env
  have hdone : (apply seedName d g files env).done d =
      ⟨(d.disk.exec (swappedOps seedName d g files env)).exec
          (pruneOps (d.disk.exec (swappedOps seedName d g files env)) env.readdir), g,
        entryOf seedName d⟩ := by
    rw [apply_staged hr hs, if_pos hok, Outcome.done, Store.exec_append]
    rfl
  have hmain : (d.disk.exec (swappedOps seedName d g files env)).main =
      if env.main.saved then some (entryOf seedName d ++ ['\n']) else d.disk.main := by
    rw [swappedOps, swapOps, Store.exec_append, Store.exec_append, Store.exec_append,
      main_exec fun op hop => ne_renameMainNew_pointLinkOps hop, main_saveMainnameOps,
      main_exec fun op hop => ?_, main_exec fun op hop => ne_renameMainNew_of_gen (gen_stagedOps hop)]
    · rfl
    · split at hop
      · exact ne_renameMainNew_pointLinkOps hop
      · exact absurd hop List.not_mem_nil
  set swapped := d.disk.exec (swappedOps seedName d g files env)
  have hcurrent : swapped.link .current = some g := by
    rw [hlink, if_pos hok, Function.update_self]
  rw [hdone]
  refine ⟨rfl, ?_, ?_, ?_⟩
  · rw [← hcurrent]
    apply Store.exec_link
    intro op hop
    rw [writes_pruneOps hop]
    exact (Option.some_ne_none _).symm
  · dsimp only
    rw [Store.exec_gens fun op hop => gen_pruneOps hop hcurrent, hgens]
    exact exec_stagedOps hr hs
  · dsimp only
    rw [main_exec fun op hop => ?_, hmain]
    obtain ⟨gen, hgen, -⟩ := gen_pruneLoopOps hop
    exact ne_renameMainNew_of_gen hgen

/-- The reload takes the generation if the entry name it finds names one of its files, and the seed
otherwise. -/
theorem reload_accepted (h : (apply seedName d g files env).error = none) :
    (((apply seedName d g files env).done d).reload seedName).mainname = entryRead seedName d env ∧
      (((apply seedName d g files env).done d).reload seedName).running =
        (if entryRead seedName d env ∈ (dirOf files).map File.name then g else 0) ∧
      (((apply seedName d g files env).done d).reload seedName).disk.gens g = some (dirOf files) := by
  obtain ⟨hname, hlink, hgens, hmain⟩ := done_accepted h
  obtain ⟨hne, -⟩ := refusal_none_main (apply_ok h).1
  set after := (apply seedName d g files env).done d
  have hread : readMainname seedName after.disk after.mainname = entryRead seedName d env := by
    rw [hname, entryRead, readMainname, readMainname, hmain]
    split <;> rfl
  refine ⟨hread, ?_, hgens⟩
  rw [Daemon.reload, hread]
  simp only [activeGeneration, hlink, hgens, Option.getD_some, hne, ne_eq, not_false_eq_true,
    true_and]

end Sysmon.ConfGen
