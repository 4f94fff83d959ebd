import FrameScan.FileSystem
import FrameScan.Scan
import FrameScan.Source.Iomem
import FrameScan.Source.Maps

/-!
# Surveys

A survey scans all that a target stands for. It is prepared first: every listing
and table is opened before the header is written, so that a target that cannot
be looked at produces no output.
-/

namespace FrameScan

structure Survey where
  size : PageSize
  target : Target
  label : String
  table : EntryTable
  policy : Policy
  source : Source

namespace Survey

open Session

def mapsName (pid : UInt32) : String := s!"{pid.toNat}/maps"
def pagemapName (pid : UInt32) : String := s!"{pid.toNat}/pagemap"
def executableName (pid : UInt32) : String := s!"{pid.toNat}/exe"
def iomemName : String := "iomem"
def frameTableName : String := "kpageflags"

def prepare (files : FileSystem) (settings : Settings) : Target → Except Failure Survey
  | .process pid => do
    let maps ← files.listing (settings.path (mapsName pid))
    return {
      size := settings.pageSize
      target := .process pid
      table := ← files.table (settings.path (pagemapName pid))
      label := files.linkText (settings.path (executableName pid))
      policy := .resident settings.pageSize
      source := .maps settings maps }
  | .kernel => do
    let iomem ← files.listing (settings.path iomemName)
    return {
      size := settings.pageSize
      target := .kernel
      table := ← files.table (settings.path frameTableName)
      label := "kernel"
      policy := .all
      source := .iomem settings iomem }
  | .pageCache => do
    return {
      size := settings.pageSize
      target := .pageCache
      table := ← files.table (settings.path frameTableName)
      label := "pagecache"
      policy := .cache settings.filter
      source := .physical settings }

def perform (survey : Survey) : Action Unit := do
  emit (.header survey.target survey.label)
  Scan.source survey.size survey.table survey.policy survey.source
  flush
  note (.finished survey.target)

end Survey

def survey (files : FileSystem) (settings : Settings) (target : Target) : Action Unit := do
  let survey ← Session.require (Survey.prepare files settings target)
  survey.perform

end FrameScan
