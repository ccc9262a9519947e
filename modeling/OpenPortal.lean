import OpenPortal.Rust
import OpenPortal.Templemeads.Grammar
import OpenPortal.Templemeads.GrammarRoundTrip
import OpenPortal.Templemeads.Job
import OpenPortal.Templemeads.JobLifecycle
import OpenPortal.Templemeads.Board
import OpenPortal.Templemeads.Wire
import OpenPortal.Paddington.Url
import OpenPortal.Paddington.UrlRoundTrip
import OpenPortal.Paddington.Config
import OpenPortal.Paddington.Registry
import OpenPortal.Paddington.RegistryMap
import OpenPortal.Paddington.Invitation
import OpenPortal.Paddington.Admission
import OpenPortal.Paddington.Crypto
import OpenPortal.Slurm.Cache
import OpenPortal.Slurm.CacheLaws
import OpenPortal.Slurm.Runner
