import CraneTracker.Lib.Interleaving
import CraneTracker.Lib.Linearization
import CraneTracker.Lib.Termination
import CraneTracker.Lib.Table
import CraneTracker.Lib.Keyset
import CraneTracker.Lib.Hex
import CraneTracker.Lib.Walk
import CraneTracker.Lib.Ddl
import CraneTracker.Lib.Percent
import CraneTracker.Models
import CraneTracker.Services.Photo
import CraneTracker.Services.Crane
import CraneTracker.Services.Geocode
import CraneTracker.Services.Auth
import CraneTracker.Schemas
import CraneTracker.Worker.PhotoJobs
import CraneTracker.Pipeline.Store
import CraneTracker.Pipeline.System
import CraneTracker.Pipeline.Steps
import CraneTracker.Pipeline.Writes
import CraneTracker.Pipeline.Consistent
import CraneTracker.Pipeline.Rely
import CraneTracker.Pipeline.Requests
import CraneTracker.Pipeline.Workers
import CraneTracker.Pipeline.Invariant
import CraneTracker.Pipeline.Events
import CraneTracker.Pipeline.Safety
import CraneTracker.Pipeline.Lifecycle
import CraneTracker.Pipeline.Leases
import CraneTracker.Pipeline.Attempts
import CraneTracker.Pipeline.Cleanup
import CraneTracker.Pipeline.Orphans
import CraneTracker.Pipeline.WellFormed
import CraneTracker.Pipeline.Timely
import CraneTracker.Pipeline.Answers
import CraneTracker.Pipeline.Reports
import CraneTracker.Pipeline.Locking
import CraneTracker.Pipeline.Termination
import CraneTracker.Pipeline.Clocks
import CraneTracker.Pipeline.Publication
import CraneTracker.Creation.System
import CraneTracker.Creation.Duplicates
import CraneTracker.Gone.System
import CraneTracker.Gone.Reports
import CraneTracker.Admin.Sessions
import CraneTracker.Admin.Paging
import CraneTracker.Admin.Passwords
import CraneTracker.Admin.Provisioning
import CraneTracker.Admin.Moderation
import CraneTracker.Cranes.Listing
import CraneTracker.Cranes.Deletion
import CraneTracker.Cranes.PublicUrl
import CraneTracker.Cranes.Gallery
import CraneTracker.Site.Deletions
import CraneTracker.Album.Spec
import CraneTracker.Album.Refinement
import CraneTracker.Album.Answers
import CraneTracker.Migrations.Versions
import CraneTracker.Migrations.Storability
import CraneTracker.Worker.Batch
import CraneTracker.Worker.Outcomes
import CraneTracker.Worker.Drain
import CraneTracker.Worker.Reaper
import CraneTracker.Worker.Refinement
import CraneTracker.Worker.Main
import CraneTracker.Worker.Work
import CraneTracker.Worker.Recovery
