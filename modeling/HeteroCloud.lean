import HeteroCloud.Access.IdentityCenterSessions
import HeteroCloud.Api.Background
import HeteroCloud.Api.Isolation
import HeteroCloud.Backups.Snapshots
import HeteroCloud.Backups.Scheduler
import HeteroCloud.CloudOrganizations.Invariant
import HeteroCloud.Destinations.Credentials
import HeteroCloud.Domains.Bindings
import HeteroCloud.Flash.Rollback
import HeteroCloud.Flash.Restore
import HeteroCloud.Flash.Validity
import HeteroCloud.FlowAccess.Credentials
import HeteroCloud.Iam.Matching
import HeteroCloud.Iam.Order
import HeteroCloud.Onboarding.CliDevices
import HeteroCloud.Onboarding.Invitations
import HeteroCloud.Registry.Credentials
import HeteroCloud.Revisions.Rollbacks
import HeteroCloud.Services.Deliveries
import HeteroCloud.Services.Disks
import HeteroCloud.Services.Owners
import HeteroCloud.Services.Vpcs
import HeteroCloud.Services.Buckets
import HeteroCloud.Services.Ceilings
import HeteroCloud.Store.AdvisoryLocks
import HeteroCloud.Store.Metrics
import HeteroCloud.Api.Bearer
import HeteroCloud.Dns.Records
