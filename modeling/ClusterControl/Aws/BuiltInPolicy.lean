import ClusterControl.Text.Base64

/-!
# The built-in policy

The document that users attach to their role or user, unless the configuration names another.
-/

namespace ClusterControl.Aws

def builtInPolicy : String :=
  String.join ([
    "\x7b",
    "  \"Version\": \"2012-10-17\",",
    "  \"Statement\": [",
    "    \x7b",
    "      \"Sid\": \"ComputeLifecycle\",",
    "      \"Effect\": \"Allow\",",
    "      \"Action\": [",
    "        \"ec2:DescribeRegions\",",
    "        \"ec2:DescribeAvailabilityZones\",",
    "        \"ec2:DescribeInstances\",",
    "        \"ec2:RunInstances\",",
    "        \"ec2:TerminateInstances\",",
    "        \"ec2:CreateTags\",",
    "        \"ec2:DescribeSecurityGroups\",",
    "        \"ec2:CreateSecurityGroup\",",
    "        \"ec2:DeleteSecurityGroup\",",
    "        \"ec2:AuthorizeSecurityGroupIngress\"",
    "      ],",
    "      \"Resource\": [\"*\"]",
    "    \x7d,",
    "    \x7b",
    "      \"Sid\": \"StackTemplates\",",
    "      \"Effect\": \"Allow\",",
    "      \"Action\": [",
    "        \"cloudformation:CreateStack\",",
    "        \"cloudformation:DeleteStack\",",
    "        \"cloudformation:DescribeStacks\",",
    "        \"cloudformation:DescribeStackEvents\",",
    "        \"cloudformation:DescribeStackResource\"",
    "      ],",
    "      \"Resource\": [\"*\"]",
    "    \x7d,",
    "    \x7b",
    "      \"Sid\": \"AutoScaling\",",
    "      \"Effect\": \"Allow\",",
    "      \"Action\": [",
    "        \"autoscaling:CreateAutoScalingGroup\",",
    "        \"autoscaling:DeleteAutoScalingGroup\",",
    "        \"autoscaling:DescribeAutoScalingGroups\",",
    "        \"autoscaling:UpdateAutoScalingGroup\",",
    "        \"autoscaling:DetachInstances\"",
    "      ],",
    "      \"Resource\": [\"*\"]",
    "    \x7d,",
    "    \x7b",
    "      \"Sid\": \"PassInstanceRoles\",",
    "      \"Effect\": \"Allow\",",
    "      \"Action\": [\"iam:PassRole\", \"iam:GetInstanceProfile\"],",
    "      \"Resource\": [\"*\"]",
    "    \x7d",
    "  ]",
    "\x7d"
  ].map (· ++ "\n"))

def builtInPolicyBase64 : String := String.ofList (Base64.encode builtInPolicy.toUTF8.toList)

end ClusterControl.Aws
